import Mathlib
import RehashReport.Proofs.Text.Split
import RehashReport.Storage.FileTree

/-!
# The parts of a path

A path with a last name consists of its parent and that name: the names on its way are those on the
way of the parent and then the last one, and both start at the same place (`exists_parent?`).  If it
ends neither in a slash nor in a dot, it does not ask for a directory
(`wantsDirectory_eq_false`).
-/

namespace RehashReport.Storage.Path

/-! ## Idle pieces -/

/-- The pieces that are names. -/
def properNames (pieces : List Name) : List Name := pieces.filter fun piece => !isIdle piece

theorem dropIdle_append_idle (pieces : List Name) :
    ∃ tail, pieces = dropIdle pieces ++ tail ∧ ∀ piece ∈ tail, isIdle piece = true := by
  refine ⟨(pieces.reverse.takeWhile isIdle).reverse, ?_, ?_⟩
  · rw [dropIdle, ← List.reverse_append, List.takeWhile_append_dropWhile, List.reverse_reverse]
  · intro piece hpiece
    exact List.mem_takeWhile_imp (List.mem_reverse.1 hpiece)

theorem properNames_eq_nil {pieces : List Name} (h : ∀ piece ∈ pieces, isIdle piece = true) :
    properNames pieces = [] := by
  rw [properNames, List.filter_eq_nil_iff]
  intro piece hpiece
  simp [h piece hpiece]

theorem properNames_append (pieces more : List Name) :
    properNames (pieces ++ more) = properNames pieces ++ properNames more :=
  List.filter_append _ _

theorem properNames_dropIdle (pieces : List Name) :
    properNames (dropIdle pieces) = properNames pieces := by
  obtain ⟨tail, hpieces, htail⟩ := dropIdle_append_idle pieces
  have h := properNames_append (dropIdle pieces) tail
  rw [← hpieces, properNames_eq_nil htail, List.append_nil] at h
  exact h.symm

theorem isIdle_of_getLast?_dropIdle {pieces : List Name} {name : Name}
    (h : (dropIdle pieces).getLast? = some name) : isIdle name = false := by
  rw [dropIdle, List.getLast?_reverse] at h
  have hnot := List.head?_dropWhile_not isIdle pieces.reverse
  rw [h] at hnot
  simpa using hnot

/-! ## The pieces of a path -/

/-- The pieces at the front that count although they hold no name. -/
def front (path : List Char) : List Name := (Text.split '/' path).take (frontPieces path)

/-- The pieces after them, down to the last name. -/
def body (path : List Char) : List Name := dropIdle ((Text.split '/' path).drop (frontPieces path))

theorem lastName?_eq (path : List Char) : lastName? path = (body path).getLast? := rfl

theorem head?_split_of_isAbsolute {path : List Char} (h : isAbsolute path = true) :
    (Text.split '/' path).head? = some [] :=
  Text.head?_split_eq_some_nil_iff.2 (.inr (by simpa [isAbsolute] using h))

/-- What stands at the front is nothing, or the empty piece of an absolute path, or a dot. -/
theorem front_cases (path : List Char) :
    (front path = [[]] ∧ isAbsolute path = true) ∨ (front path = [here] ∧ isAbsolute path = false) ∨
      (front path = [] ∧ isAbsolute path = false ∧ (Text.split '/' path).head? ≠ some here) := by
  rw [front, frontPieces]
  cases hsplit : Text.split '/' path with
  | nil => exact absurd hsplit (List.splitOn_ne_nil '/' path)
  | cons piece pieces =>
    by_cases habsolute : isAbsolute path = true
    · left
      have hempty := head?_split_of_isAbsolute habsolute
      rw [hsplit, List.head?_cons, Option.some_inj] at hempty
      simp [habsolute, hempty]
    · right
      rw [Bool.not_eq_true] at habsolute
      by_cases hdot : piece = here
      · left
        simp [habsolute, hdot]
      · right
        simp [habsolute, hdot]

theorem isIdle_of_mem_front {path : List Char} {piece : Name} (h : piece ∈ front path) :
    isIdle piece = true := by
  rcases front_cases path with ⟨hfront, -⟩ | ⟨hfront, -⟩ | ⟨hfront, -⟩ <;> rw [hfront] at h
  · rw [List.mem_singleton.1 h]
    rfl
  · rw [List.mem_singleton.1 h]
    rfl
  · cases h

theorem names_eq (path : List Char) : names path = properNames (body path) := by
  rw [body, properNames_dropIdle]
  have h := properNames_append (front path) ((Text.split '/' path).drop (frontPieces path))
  rw [front, List.take_append_drop] at h
  rw [names, ← properNames, h, ← front, properNames_eq_nil fun _ => isIdle_of_mem_front,
    List.nil_append]

theorem mem_split_of_mem_body {path : List Char} {piece : Name} (h : piece ∈ body path) :
    piece ∈ Text.split '/' path := by
  obtain ⟨tail, htail, -⟩ := dropIdle_append_idle ((Text.split '/' path).drop (frontPieces path))
  refine List.mem_of_mem_drop (i := frontPieces path) ?_
  rw [htail]
  exact List.mem_append_left tail h

/-- The last name of a path is a name. -/
theorem isIdle_of_lastName? {path : List Char} {name : Name} (h : lastName? path = some name) :
    isIdle name = false := isIdle_of_getLast?_dropIdle h

/-! ## The parent -/

/-- The pieces between the front of a path and its last name. -/
def between (path : List Char) : List Name := dropIdle (body path).dropLast

theorem body_eq {path : List Char} {name : Name} (h : lastName? path = some name) :
    body path = (body path).dropLast ++ [name] := by
  obtain ⟨rest, hrest⟩ := List.getLast?_eq_some_iff.1 h
  rw [body, hrest, List.dropLast_concat]

theorem names_eq_append {path : List Char} {name : Name} (h : lastName? path = some name) :
    names path = properNames (between path) ++ [name] := by
  have hname : properNames [name] = [name] := by
    simp [properNames, isIdle_of_lastName? h]
  rw [names_eq, body_eq h, properNames_append, hname, between, properNames_dropIdle]

theorem mem_split_of_mem_between {path : List Char} {piece : Name} (h : piece ∈ between path) :
    piece ∈ Text.split '/' path := by
  obtain ⟨tail, htail, -⟩ := dropIdle_append_idle (body path).dropLast
  refine mem_split_of_mem_body (List.mem_of_mem_dropLast ?_)
  rw [htail]
  exact List.mem_append_left tail h

theorem names_join {pieces : List Name} (hne : pieces ≠ []) (h : ∀ piece ∈ pieces, '/' ∉ piece) :
    names (Text.join '/' pieces) = properNames pieces := by
  rw [names, Text.split, Text.join, List.splitOn_intercalate '/' h hne, properNames]

theorem parent?_eq {path : List Char} {name : Name} (h : lastName? path = some name) :
    parent? path = some (if front path = [[]] ∧ between path = [] then ['/']
      else Text.join '/' (front path ++ between path)) := by
  have hbody : body path ≠ [] := by
    intro hnil
    rw [lastName?_eq, hnil] at h
    cases h
  rw [parent?, ← front, ← body, if_neg hbody, ← between]
  simp only [Bool.and_eq_true, decide_eq_true_eq]
  split_ifs <;> rfl

theorem between_isPrefixOf (path : List Char) :
    between path <+: (Text.split '/' path).drop (frontPieces path) := by
  have hdrop : ∀ pieces : List Name, dropIdle pieces <+: pieces := by
    intro pieces
    obtain ⟨tail, htail, -⟩ := dropIdle_append_idle pieces
    exact ⟨tail, htail.symm⟩
  exact ((hdrop _).trans (List.dropLast_prefix _)).trans (hdrop _)

/-- A piece at the very front of a relative path is not empty. -/
theorem head?_split_ne {path : List Char} (hpath : path ≠ []) (h : isAbsolute path = false) :
    (Text.split '/' path).head? ≠ some [] := by
  rw [ne_eq, Text.head?_split_eq_some_nil_iff, not_or]
  exact ⟨hpath, by simpa [isAbsolute] using h⟩

theorem isAbsolute_join {piece : Name} (hpiece : piece ≠ []) (hslash : '/' ∉ piece)
    (pieces : List Name) : isAbsolute (Text.join '/' (piece :: pieces)) = false := by
  obtain ⟨c, cs, rfl⟩ := List.exists_cons_of_ne_nil hpiece
  have hc : c ≠ '/' := by
    rintro rfl
    exact hslash List.mem_cons_self
  cases pieces with
  | nil => simp [Text.join, isAbsolute, hc]
  | cons next rest => simp [Text.join_cons, isAbsolute, hc]

theorem frontPieces_eq_zero {path : List Char} (h : front path = []) : frontPieces path = 0 := by
  have hlength := congrArg List.length h
  have hpos : 0 < (Text.split '/' path).length :=
    List.length_pos_iff_ne_nil.2 (List.splitOn_ne_nil '/' path)
  rw [front, List.length_take, List.length_nil] at hlength
  omega

/-- A relative path that does not start with a dot has its first piece at the front of its
parent. -/
theorem head?_between_ne {path : List Char} (hpath : path ≠ [])
    (habsolute : isAbsolute path = false) (hfront : front path = []) :
    (between path).head? ≠ some [] := by
  obtain ⟨more, hmore⟩ := between_isPrefixOf path
  rw [frontPieces_eq_zero hfront, List.drop_zero] at hmore
  intro hhead
  refine head?_split_ne hpath habsolute ?_
  rw [← hmore, List.head?_append, hhead]
  rfl

/-- **A path is its parent and its last name.** -/
theorem exists_parent? {path : List Char} {name : Name} (h : lastName? path = some name) :
    ∃ parent, parent? path = some parent ∧ names path = names parent ++ [name] ∧
      isAbsolute parent = isAbsolute path := by
  have hslash : ∀ piece ∈ between path, '/' ∉ piece := fun piece hpiece =>
    Text.not_mem_of_mem_split (mem_split_of_mem_between hpiece)
  have hidle : ∀ piece : Name, isIdle piece = true →
      properNames (piece :: between path) = properNames (between path) := by
    intro piece hpiece
    simp [properNames, hpiece]
  refine ⟨_, parent?_eq h, ?_⟩
  rw [names_eq_append h]
  rcases front_cases path with ⟨hfront, habsolute⟩ | ⟨hfront, habsolute⟩ |
    ⟨hfront, habsolute, -⟩
  · -- an absolute path: the empty piece at the front makes the slash of the root
    rw [hfront, habsolute]
    by_cases hbetween : between path = []
    · rw [if_pos ⟨rfl, hbetween⟩, hbetween]
      exact ⟨rfl, rfl⟩
    · rw [if_neg fun h => hbetween h.2, List.singleton_append,
        names_join (by simp) (List.forall_mem_cons.2 ⟨List.not_mem_nil, hslash⟩), hidle [] rfl]
      refine ⟨rfl, ?_⟩
      obtain ⟨piece, pieces, hpieces⟩ := List.exists_cons_of_ne_nil hbetween
      rw [hpieces, Text.join_cons (by simp)]
      rfl
  · -- a dot stays at the front, but is no name
    rw [hfront, habsolute, if_neg (by simp [here]), List.singleton_append,
      names_join (by simp) (List.forall_mem_cons.2 ⟨by decide, hslash⟩), hidle here rfl]
    exact ⟨rfl, isAbsolute_join (by decide) (by decide) _⟩
  · rw [hfront, habsolute, if_neg (by simp), List.nil_append]
    cases hbetween : between path with
    | nil => exact ⟨rfl, rfl⟩
    | cons piece pieces =>
      rw [hbetween] at hslash
      refine ⟨by rw [names_join (by simp) hslash], ?_⟩
      refine isAbsolute_join ?_ (hslash piece List.mem_cons_self) pieces
      rintro rfl
      have hpath : path ≠ [] := by
        rintro rfl
        cases h
      exact head?_between_ne hpath habsolute hfront (by rw [hbetween]; rfl)

/-! ## The end of a path -/

/-- A path with an extension has a last name, and that is not two dots. -/
theorem exists_lastName?_of_extension? {path : List Char} {extension : List Char}
    (h : extension? path = some extension) : ∃ name, lastName? path = some name ∧ name ≠ above := by
  rw [extension?, Option.bind_eq_some_iff] at h
  obtain ⟨name, hname, hextension⟩ := h
  refine ⟨name, hname, ?_⟩
  rintro rfl
  cases hextension

/-- A path asks for a directory only by a slash or a dot at its end. -/
theorem wantsDirectory_eq_false {path : List Char} (hpath : path ≠ [])
    (hslash : endsInSlash path = false) (hdot : endsInDot path = false) :
    FileTree.wantsDirectory path = false := by
  rw [FileTree.wantsDirectory]
  cases hlast : (Text.split '/' path).getLast? with
  | none => rfl
  | some piece =>
    have hempty : piece ≠ [] := by
      rintro rfl
      have hend := Text.getLast?_of_getLast?_split hpath hlast
      simp [endsInSlash, hend] at hslash
    have hhere : piece ≠ here := by
      rintro rfl
      obtain ⟨pieces, hpieces⟩ := List.getLast?_eq_some_iff.1 hlast
      rw [endsInDot, hpieces, List.filter_append] at hdot
      simp [here] at hdot
    simp [isIdle, hempty, hhere]

end RehashReport.Storage.Path
