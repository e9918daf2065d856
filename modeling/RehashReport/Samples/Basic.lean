/-!
# Samples

How many hash table buckets were rehashed how often: one record per rehash count, in the order in
which they were observed. `Samples` keeps the two columns side by side, and `Samples.toList` is
their view as records.
-/

namespace RehashReport

/-- So many buckets were rehashed so many times. -/
structure Record where
  rehashCount : UInt64
  bucketCount : UInt64
deriving DecidableEq, Repr

/-- A table of records, column by column. -/
structure Samples where
  rehashCounts : Array UInt64
  bucketCounts : Array UInt64
  aligned : rehashCounts.size = bucketCounts.size
deriving DecidableEq, Repr

namespace Samples

/-- The table without records. -/
def empty : Samples := ⟨#[], #[], rfl⟩

/-- Adds a record at the end. -/
def push (s : Samples) (r : Record) : Samples where
  rehashCounts := s.rehashCounts.push r.rehashCount
  bucketCounts := s.bucketCounts.push r.bucketCount
  aligned := by simp [s.aligned]

/-- The table of the given records, in their order. -/
def ofList (rs : List Record) : Samples :=
  rs.foldl push empty

/-- The records of a table, in order. -/
def toList (s : Samples) : List Record :=
  (s.rehashCounts.toList.zip s.bucketCounts.toList).map fun (r, c) => ⟨r, c⟩

/-- How many records there are. -/
def size (s : Samples) : Nat := s.rehashCounts.size

/-- Whether there are none. -/
def isEmpty (s : Samples) : Bool := s.rehashCounts.isEmpty

@[simp] theorem toList_empty : empty.toList = [] := rfl

@[simp] theorem toList_push (s : Samples) (r : Record) :
    (s.push r).toList = s.toList ++ [r] := by
  have h : s.rehashCounts.toList.length = s.bucketCounts.toList.length := by
    simpa using s.aligned
  simp [toList, push, List.zip_append h]

private theorem toList_foldl_push (s : Samples) (rs : List Record) :
    (rs.foldl push s).toList = s.toList ++ rs := by
  induction rs generalizing s with
  | nil => simp
  | cons r rs ih => simp [ih]

@[simp] theorem toList_ofList (rs : List Record) : (ofList rs).toList = rs := by
  simp [ofList, toList_foldl_push]

end Samples

end RehashReport
