import Mathlib
import RehashReport.Proofs.Storage.Path
import RehashReport.Storage.FileTree

/-!
# Opening and creating a file

What a path opens is what it names (`openFile_eq_ok_iff`), which `Names` says without following it.

When a file of a path can be created, and what that changes.  Besides the directory that the path
names, which has to be there, the path itself has to allow it (`Unnameable` says how it can fail
to).  Then the file can be created unless a directory has the place, the new tree differs from the
old one at one location, and the path leads to the file (`exists_create`); otherwise it cannot
(`exists_fault_of_unnameable`).
-/

namespace RehashReport.Storage.FileTree

variable {t : FileTree}

/-! ## Following names -/

theorem follow_cons {l k : Location} {name : Name} {names : List Name} :
    t.follow l (name :: names) = .ok k ↔
      t.node? l = some .directory ∧
        ((name = above ∧ t.follow l.dropLast names = .ok k) ∨
          (name ≠ above ∧ Name.size name ≤ longestName ∧ t.node? (l ++ [name]) ≠ none ∧
            t.follow (l ++ [name]) names = .ok k)) := by
  rw [follow]
  by_cases hdirectory : t.node? l = some .directory
  · by_cases habove : name = above
    · simp [hdirectory, habove]
    · by_cases hlong : longestName < Name.size name
      · simp [hdirectory, habove, hlong]
      · by_cases hnone : t.node? (l ++ [name]) = none
        · simp [hdirectory, habove, hlong, hnone]
        · simp [hdirectory, habove, hlong, hnone, not_lt.1 hlong]
  · simp [hdirectory]

/-- Names lead from one location to another: each stands for an entry of the directory before it,
and two dots for the directory above. -/
inductive Leads (t : FileTree) : Location → List Name → Location → Prop
  | here (l : Location) : Leads t l [] l
  | up {l m : Location} {names : List Name} :
      t.node? l = some .directory → Leads t l.dropLast names m → Leads t l (above :: names) m
  | down {l m : Location} {name : Name} {names : List Name} :
      t.node? l = some .directory → name ≠ above → Name.size name ≤ longestName →
        t.node? (l ++ [name]) ≠ none → Leads t (l ++ [name]) names m → Leads t l (name :: names) m

theorem follow_eq_ok_iff_leads {l m : Location} {names : List Name} :
    t.follow l names = .ok m ↔ t.Leads l names m := by
  constructor
  · intro h
    induction names generalizing l with
    | nil =>
      cases h
      exact .here _
    | cons name names ih =>
      obtain ⟨hdirectory, ⟨rfl, hrest⟩ | ⟨habove, hsize, hnode, hrest⟩⟩ := follow_cons.1 h
      · exact .up hdirectory (ih hrest)
      · exact .down hdirectory habove hsize hnode (ih hrest)
  · intro h
    induction h with
    | here => rfl
    | up hdirectory _ ih => exact follow_cons.2 ⟨hdirectory, .inl ⟨rfl, ih⟩⟩
    | down hdirectory habove hsize hnode _ ih =>
      exact follow_cons.2 ⟨hdirectory, .inr ⟨habove, hsize, hnode, ih⟩⟩

theorem follow_append {l m : Location} {names : List Name} (h : t.follow l names = .ok m)
    (more : List Name) : t.follow l (names ++ more) = t.follow m more := by
  induction names generalizing l with
  | nil =>
    rw [follow] at h
    cases h
    rfl
  | cons name names ih =>
    rw [follow_cons] at h
    obtain ⟨hdirectory, ⟨habove, hrest⟩ | ⟨habove, hsize, hnode, hrest⟩⟩ := h
    · rw [List.cons_append, follow, if_neg (not_not.2 hdirectory), if_pos habove, ih hrest]
    · rw [List.cons_append, follow, if_neg (not_not.2 hdirectory), if_neg habove,
        if_neg (not_lt.2 hsize), if_neg hnode, ih hrest]

theorem ne_nil_of_node? {m : Location} (h : t.node? m ≠ some .directory) : m ≠ [] := by
  rintro rfl
  exact h rfl

@[simp] theorem start_insert (t : FileTree) (m : Location) (node : Node) (path : List Char) :
    (t.insert m node).start path = t.start path := rfl

/-- A file that is put where no directory is stands in nobody's way. -/
theorem follow_insert {m : Location} (hm : t.node? m ≠ some .directory) (content : List UInt8)
    {l k : Location} {names : List Name} (h : t.follow l names = .ok k) :
    (t.insert m (.file content)).follow l names = .ok k := by
  induction names generalizing l with
  | nil => exact h
  | cons name names ih =>
    rw [follow_cons] at h ⊢
    obtain ⟨hdirectory, hrest⟩ := h
    have hl : l ≠ m := by
      rintro rfl
      exact hm hdirectory
    rw [node?_insert_of_ne t hl]
    refine ⟨hdirectory, ?_⟩
    rcases hrest with ⟨habove, hrest⟩ | ⟨habove, hsize, hnode, hrest⟩
    · exact .inl ⟨habove, ih hrest⟩
    · refine .inr ⟨habove, hsize, ?_, ih hrest⟩
      by_cases hnext : l ++ [name] = m
      · rw [hnext, node?_insert_self t (ne_nil_of_node? hm)]
        simp
      · rwa [node?_insert_of_ne t hnext]

/-! ## Opening -/

/-- What a path names.  It may be neither empty nor too long and has no zero character, its names
lead to what is named, and that is a directory if the path ends like one. -/
structure Names (t : FileTree) (path : String) (node : Node) : Prop where
  ne_nil : path.toList ≠ []
  zeroCharacter : '\x00' ∉ path.toList
  size_lt : Name.size path.toList < pathLimit
  leads : ∃ m, t.Leads (t.start path.toList) (Path.names path.toList) m ∧ t.node? m = some node
  wants : wantsDirectory path.toList = true → node = .directory

theorem pathFault?_eq_none_iff {path : List Char} :
    pathFault? path = none ↔ path ≠ [] ∧ '\x00' ∉ path ∧ Name.size path < pathLimit := by
  rw [pathFault?]
  split_ifs with hzero hempty hlong
  · simp [hzero]
  · simp [hempty]
  · simp [not_lt.2 hlong]
  · simp [hzero, hempty, not_le.1 hlong]

theorem openFile_eq_ok_iff_follow {path : String} {node : Node} :
    t.openFile path = .ok node ↔
      pathFault? path.toList = none ∧
        ∃ l, t.follow (t.start path.toList) (Path.names path.toList) = .ok l ∧
          t.node? l = some node ∧ (wantsDirectory path.toList = true → node = .directory) := by
  simp only [openFile]
  cases hfault : pathFault? path.toList with
  | some fault => simp
  | none =>
    cases hfollow : t.follow (t.start path.toList) (Path.names path.toList) with
    | error fault => simp
    | ok l =>
      cases hnode : t.node? l with
      | none => simp [hnode]
      | some named =>
        cases named with
        | directory =>
          simp only [Except.ok.injEq, exists_eq_left', hnode, Option.some_inj, true_and]
          exact ⟨fun h => ⟨h, fun _ => h.symm⟩, And.left⟩
        | file content =>
          simp only [Except.ok.injEq, exists_eq_left', hnode, Option.some_inj, true_and]
          split_ifs with hwants
          · refine iff_of_false (by simp) ?_
            rintro ⟨rfl, hdirectory⟩
            cases hdirectory hwants
          · simp [hwants]

/-- A path opens just if it names something, and opens what it names. -/
theorem openFile_eq_ok_iff {path : String} {node : Node} :
    t.openFile path = .ok node ↔ t.Names path node := by
  simp only [openFile_eq_ok_iff_follow, pathFault?_eq_none_iff, follow_eq_ok_iff_leads]
  constructor
  · rintro ⟨⟨hempty, hzero, hsize⟩, l, hleads, hnode, hwants⟩
    exact ⟨hempty, hzero, hsize, ⟨l, hleads, hnode⟩, hwants⟩
  · rintro ⟨hempty, hzero, hsize, ⟨l, hleads, hnode⟩, hwants⟩
    exact ⟨⟨hempty, hzero, hsize⟩, l, hleads, hnode, hwants⟩

theorem openFile_of_follow {path : String} (hfault : pathFault? path.toList = none) {l : Location}
    (hfollow : t.follow (t.start path.toList) (Path.names path.toList) = .ok l) {node : Node}
    (hnode : t.node? l = some node) (hwants : wantsDirectory path.toList = false) :
    t.openFile path = .ok node := by
  exact openFile_eq_ok_iff_follow.2 ⟨hfault, l, hfollow, hnode, by simp [hwants]⟩

theorem exists_follow_of_isDirectory {path : String} (h : t.isDirectory path = true) :
    ∃ l, t.follow (t.start path.toList) (Path.names path.toList) = .ok l ∧
      t.node? l = some .directory := by
  have hopen : t.openFile path = .ok .directory := by
    rw [isDirectory] at h
    split at h
    next hopen => exact hopen
    next => cases h
  obtain ⟨-, l, hfollow, hnode, -⟩ := openFile_eq_ok_iff_follow.1 hopen
  exact ⟨l, hfollow, hnode⟩

/-! ## The place of a new file -/

/-- When a path leads to a place for a file. -/
theorem target_eq_ok_iff {path : List Char} {m : Location} :
    t.target path = .ok m ↔
      pathFault? path = none ∧ ∃ name l, (Path.names path).getLast? = some name ∧ name ≠ above ∧
        Path.endsInDot path = false ∧
        t.follow (t.start path) (Path.names path).dropLast = .ok l ∧
        t.node? l = some .directory ∧ Path.endsInSlash path = false ∧
        Name.size name ≤ longestName ∧ m = l ++ [name] := by
  simp only [target]
  cases hfault : pathFault? path with
  | some fault => simp
  | none =>
    cases hlast : (Path.names path).getLast? with
    | none => simp
    | some name =>
      by_cases hend : name = above ∨ Path.endsInDot path = true
      · -- what such a path leads to is opened, but only to tell what is wrong
        have hcond : (decide (name = above) || Path.endsInDot path) = true := by simpa using hend
        simp only [hcond, if_true]
        refine iff_of_false ?_ ?_
        · cases t.openFile (String.ofList path) <;> simp
        · rintro ⟨-, name', l, ⟨⟩, habove, hdot, -⟩
          rcases hend with hend | hend
          · exact habove hend
          · rw [hend] at hdot
            cases hdot
      · rw [not_or, Bool.not_eq_true] at hend
        obtain ⟨habove, hdot⟩ := hend
        have hcond : (decide (name = above) || Path.endsInDot path) = false := by
          simp [habove, hdot]
        simp only [hcond, Bool.false_eq_true, if_false]
        cases hfollow : t.follow (t.start path) (Path.names path).dropLast with
        | error fault => simp
        | ok l =>
          by_cases hdirectory : t.node? l = some .directory
          · cases hslash : Path.endsInSlash path
            · by_cases hlong : longestName < Name.size name
              · simp [hdirectory, hlong]
              · simp [hdirectory, hlong, habove, hdot, not_lt.1 hlong, eq_comm]
            · simp [hdirectory]
          · simp [hdirectory]

/-- How a path can fail to be that of a file although the directory that it names is there. -/
inductive Unnameable (t : FileTree) (path : List Char) : Prop
  /-- It holds a zero character. -/
  | zeroCharacter : '\x00' ∈ path → Unnameable t path
  /-- It is too long. -/
  | tooLong : pathLimit ≤ Name.size path → Unnameable t path
  /-- It ends in a slash and so asks for a directory. -/
  | endsInSlash : Path.endsInSlash path = true → Unnameable t path
  /-- It ends in a dot and so asks for a directory. -/
  | endsInDot : Path.endsInDot path = true → Unnameable t path
  /-- Its last name is too long. -/
  | longName {name : Name} :
      Path.lastName? path = some name → longestName < Name.size name → Unnameable t path
  /-- It names no directory, and the working directory is none. -/
  | adrift : Path.parent? path = some [] → t.node? t.workingDirectory ≠ some .directory →
      Unnameable t path

/-- The directory that a path names is there, if it names one. -/
def HasDirectory (t : FileTree) (path : List Char) : Prop :=
  ∀ parent, Path.parent? path = some parent → parent ≠ [] →
    t.isDirectory (String.ofList parent) = true

section

variable {path : List Char} {name : Name}

/-- The names before the last one lead to a directory. -/
theorem exists_follow_parent (hname : Path.lastName? path = some name)
    (hdirectory : HasDirectory t path) (hpath : ¬Unnameable t path) :
    ∃ l, Path.names path = (Path.names path).dropLast ++ [name] ∧
      t.follow (t.start path) (Path.names path).dropLast = .ok l ∧
      t.node? l = some .directory := by
  obtain ⟨parent, hparent, hnames, habsolute⟩ := Path.exists_parent? hname
  have hstart : t.start path = t.start parent := by rw [start, start, habsolute]
  rw [hnames, List.dropLast_concat, hstart]
  by_cases hempty : parent = []
  · -- then the path has one name, which is looked for in the working directory
    subst hempty
    refine ⟨t.workingDirectory, rfl, rfl, ?_⟩
    by_contra hnot
    exact hpath (.adrift hparent hnot)
  · obtain ⟨l, hfollow, hnode⟩ := exists_follow_of_isDirectory (hdirectory parent hparent hempty)
    rw [String.toList_ofList] at hfollow
    exact ⟨l, rfl, hfollow, hnode⟩

theorem pathFault?_of_nameable (hname : Path.lastName? path = some name)
    (hpath : ¬Unnameable t path) : pathFault? path = none := by
  have hne : path ≠ [] := by
    rintro rfl
    cases hname
  rw [pathFault?, if_neg fun h => hpath (.zeroCharacter h), if_neg hne,
    if_neg fun h => hpath (.tooLong h)]

/-- The place of a new file is in the directory of its path. -/
theorem target_of_follow_parent (hname : Path.lastName? path = some name) (habove : name ≠ above)
    (hpath : ¬Unnameable t path) {l : Location}
    (hnames : Path.names path = (Path.names path).dropLast ++ [name])
    (hfollow : t.follow (t.start path) (Path.names path).dropLast = .ok l)
    (hl : t.node? l = some .directory) : t.target path = .ok (l ++ [name]) := by
  rw [target_eq_ok_iff]
  refine ⟨pathFault?_of_nameable hname hpath, name, l, ?_, habove, ?_, hfollow, hl, ?_, ?_, rfl⟩
  · rw [hnames, List.getLast?_concat]
  · by_contra hdot
    exact hpath (.endsInDot (by simpa using hdot))
  · by_contra hslash
    exact hpath (.endsInSlash (by simpa using hslash))
  · by_contra hlong
    exact hpath (.longName hname (not_le.1 hlong))

theorem wantsDirectory_of_nameable (hname : Path.lastName? path = some name)
    (hpath : ¬Unnameable t path) : wantsDirectory path = false := by
  refine Path.wantsDirectory_eq_false ?_ ?_ ?_
  · rintro rfl
    cases hname
  · by_contra hslash
    exact hpath (.endsInSlash (by simpa using hslash))
  · by_contra hdot
    exact hpath (.endsInDot (by simpa using hdot))

end

section

variable {path : String} {name : Name}

/-- **Creating a file.**  Where no directory is, a file of a path that can be one is put at one
location, to which the path then leads. -/
theorem exists_create (hname : Path.lastName? path.toList = some name) (habove : name ≠ above)
    (hdirectory : HasDirectory t path.toList) (hpath : ¬Unnameable t path.toList)
    (hnot : t.isDirectory path = false) :
    ∃ m, t.target path.toList = .ok m ∧ t.node? m ≠ some .directory ∧
      ∀ content, t.create path content = .ok (t.insert m (.file content)) ∧
        (t.insert m (.file content)).openFile path = .ok (.file content) := by
  obtain ⟨l, hnames, hfollow, hl⟩ := exists_follow_parent hname hdirectory hpath
  have htarget := target_of_follow_parent hname habove hpath hnames hfollow hl
  have hfault := pathFault?_of_nameable hname hpath
  have hwants := wantsDirectory_of_nameable hname hpath
  have hsize : Name.size name ≤ longestName := by
    by_contra hlong
    exact hpath (.longName hname (not_le.1 hlong))
  have hstep : ∀ {u : FileTree}, u.node? l = some .directory → u.node? (l ++ [name]) ≠ none →
      u.follow l [name] = .ok (l ++ [name]) := fun hl hnode =>
    follow_cons.2 ⟨hl, .inr ⟨habove, hsize, hnode, rfl⟩⟩
  have hm : t.node? (l ++ [name]) ≠ some .directory := by
    intro hnode
    have hwhole : t.follow (t.start path.toList) (Path.names path.toList) = .ok (l ++ [name]) := by
      rw [hnames, follow_append hfollow, hstep hl (by simp [hnode])]
    rw [isDirectory, openFile_of_follow hfault hwhole hnode hwants] at hnot
    cases hnot
  refine ⟨l ++ [name], htarget, hm, fun content => ⟨?_, ?_⟩⟩
  · rw [create, htarget]
    simp [hm]
  · have hself := node?_insert_self t (ne_nil_of_node? hm) (.file content)
    have hne : l ≠ l ++ [name] := by simp
    refine openFile_of_follow hfault ?_ hself hwants
    rw [start_insert, hnames, follow_append (follow_insert hm content hfollow)]
    exact hstep (by rwa [node?_insert_of_ne t hne]) (by simp [hself])

/-- There is no place for a file of a path that can be none. -/
theorem exists_fault_of_unnameable (hname : Path.lastName? path.toList = some name)
    (hpath : Unnameable t path.toList) : ∃ fault, t.target path.toList = .error fault := by
  cases htarget : t.target path.toList with
  | error fault => exact ⟨fault, rfl⟩
  | ok m =>
    rw [target_eq_ok_iff] at htarget
    obtain ⟨hfault, last, l, hlast, -, hdot, hfollow, hl, hslash, hsize, -⟩ := htarget
    obtain ⟨parent, hparent, hnames, habsolute⟩ := Path.exists_parent? hname
    rw [pathFault?] at hfault
    split_ifs at hfault with hzero hempty hlong
    rw [hnames, List.getLast?_concat, Option.some_inj] at hlast
    cases hpath with
    | zeroCharacter h => exact absurd h hzero
    | tooLong h => exact absurd h hlong
    | endsInSlash h => simp [h] at hslash
    | endsInDot h => simp [h] at hdot
    | longName h hlonger =>
      rw [h, Option.some_inj] at hname
      rw [← hlast, ← hname] at hsize
      exact absurd hlonger (not_lt.2 hsize)
    | adrift h hworking =>
      rw [h, Option.some_inj] at hparent
      subst hparent
      rw [hnames, List.dropLast_concat, start, ← habsolute] at hfollow
      cases hfollow
      exact absurd hl hworking

/-- Where there is a place for a file, its path can be one. -/
theorem nameable_of_target (hname : Path.lastName? path.toList = some name) {m : Location}
    (h : t.target path.toList = .ok m) : ¬Unnameable t path.toList := by
  intro hpath
  obtain ⟨fault, hfault⟩ := exists_fault_of_unnameable hname hpath
  rw [h] at hfault
  cases hfault

theorem create_of_target_error {fault : Fault} (h : t.target path.toList = .error fault)
    (content : List UInt8) : t.create path content = .error fault := by
  rw [create, h]

end

/-! ## Access to a tree -/

theorem run_openFile (t : FileTree) (path : String) :
    (Access.openFile path : StateM FileTree _).run t = (t.openFile path, t) := rfl

theorem run_isDirectory (t : FileTree) (path : String) :
    (Access.isDirectory path : StateM FileTree _).run t = (t.isDirectory path, t) := rfl

theorem run_create_of_ok {t u : FileTree} {path : String} {content : List UInt8}
    (h : t.create path content = .ok u) :
    (Access.create path content : StateM FileTree _).run t = (.ok (), u) := by
  simp [Access.create, StateT.run, h]

theorem run_create_of_error {t : FileTree} {path : String} {content : List UInt8} {fault : Fault}
    (h : t.create path content = .error fault) :
    (Access.create path content : StateM FileTree _).run t = (.error fault, t) := by
  simp [Access.create, StateT.run, h]

end RehashReport.Storage.FileTree
