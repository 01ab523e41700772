/-
Reading from a tree of files. A path is followed through the locations on its way, which all have to
be directories, to the location at its end. What is put at a path is read from there, and stays so
as long as nothing else is put on that way and no other way leads through its end.
-/
import ExprLexer.Files.Tree
import Mathlib.Tactic.Common

namespace ExprLexer

/-! ## The way of a path -/

namespace Location

/-- The location that the parts of a path lead to. -/
def follow (l : Location) (parts : List String) : Location := parts.foldl enter l

/-- The locations from which the parts of a path are followed. -/
def way (l : Location) : List String → List Location
  | [] => []
  | part :: rest => l :: (l.enter part).way rest

/-- The location at the end of a path. -/
def endOf (path : String) : Location := (start path).follow (pathParts path)

/-- The locations on the way of a path, before its end. -/
def wayOf (path : String) : List Location := (start path).way (pathParts path)

end Location

/-- A path that can be looked up. -/
structure IsPath (path : String) : Prop where
  no_nul : '\x00' ∉ path.toList
  ne_empty : path ≠ ""
  size_le : path.utf8ByteSize ≤ Tree.maxPath
  part_le : ∀ part ∈ pathParts path, part.utf8ByteSize ≤ Tree.maxPart

namespace Tree

variable {t : Tree} {l m : Location} {node : Node} {path : String} {content : ByteArray}

/-! ## Following a path -/

theorem walk_eq_ok_iff {parts : List String} : t.walk l parts = .ok node ↔
    (∀ m ∈ l.way parts, t.node? m = some .directory) ∧
    (∀ part ∈ parts, part.utf8ByteSize ≤ maxPart) ∧ t.node? (l.follow parts) = some node := by
  induction parts generalizing l with
  | nil =>
    rw [walk]
    cases hn : t.node? l <;> simp [Location.way, Location.follow, hn]
  | cons part rest ih =>
    have hfollow : l.follow (part :: rest) = (l.enter part).follow rest := rfl
    rw [walk, Location.way, List.forall_mem_cons, List.forall_mem_cons, hfollow]
    cases hn : t.node? l with
    | none => simp
    | some found =>
      cases found with
      | file content => simp
      | directory =>
        dsimp only
        by_cases hp : maxPart < part.utf8ByteSize
        · rw [if_pos hp]
          refine iff_of_false nofun ?_
          rintro ⟨-, ⟨hle, -⟩, -⟩
          exact Nat.not_lt.2 hle hp
        · rw [if_neg hp, ih]
          simp [Nat.not_lt.1 hp]

theorem checkPath_eq_ok_iff : checkPath path = .ok () ↔
    '\x00' ∉ path.toList ∧ path ≠ "" ∧ path.utf8ByteSize ≤ maxPath := by
  rw [← Nat.not_lt]
  unfold checkPath
  split_ifs <;> simp_all

/-- A file is read exactly if its path can be looked up and leads to it by way of directories. -/
theorem read_eq_ok_iff : t.read path = .ok content ↔ IsPath path ∧
    (∀ m ∈ Location.wayOf path, t.node? m = some .directory) ∧
    t.node? (Location.endOf path) = some (.file content) := by
  have hread : t.read path = .ok content ↔ checkPath path = .ok () ∧
      t.walk (.start path) (pathParts path) = .ok (.file content) := by
    rw [read]
    cases checkPath path with
    | error cause => simp [bind, Except.bind]
    | ok =>
      cases t.walk (.start path) (pathParts path) with
      | error cause => simp [bind, Except.bind]
      | ok node => cases node <;> simp [bind, Except.bind, Node.content]
  rw [hread, checkPath_eq_ok_iff, walk_eq_ok_iff]
  constructor
  · rintro ⟨⟨hnul, hne, hsize⟩, hway, hparts, hend⟩
    exact ⟨⟨hnul, hne, hsize, hparts⟩, hway, hend⟩
  · rintro ⟨h, hway, hend⟩
    exact ⟨⟨h.no_nul, h.ne_empty, h.size_le⟩, hway, h.part_le, hend⟩

/-! ## Putting a node -/

theorem node?_cons (l : Location) (node : Node) (t : Tree) (m : Location) :
    node? ⟨(l, node) :: t.entries⟩ m = if m = l then some node else t.node? m := by
  unfold node?
  rw [List.find?_cons]
  by_cases h : l = m
  · simp [h]
  · simp [h, Ne.symm h]

/-- What is put at a path stands at its end, and directories on its way. -/
theorem node?_putFrom {parts : List String} : (t.putFrom node l parts).node? m =
    if m = l.follow parts then some node
    else if m ∈ l.way parts then some .directory else t.node? m := by
  induction parts generalizing t l with
  | nil => simp [putFrom, node?_cons, Location.follow, Location.way]
  | cons part rest ih =>
    have hfollow : l.follow (part :: rest) = (l.enter part).follow rest := rfl
    rw [putFrom, ih, hfollow, node?_cons, Location.way]
    by_cases hm : m = l <;> simp [hm]

theorem node?_put : (t.put path node).node? m =
    if m = Location.endOf path then some node
    else if m ∈ Location.wayOf path then some .directory else t.node? m :=
  node?_putFrom

/-- A file is read from the path at which it was put, unless this leads through its own end. -/
theorem read_put (h : IsPath path) (hend : Location.endOf path ∉ Location.wayOf path) :
    (t.put path (.file content)).read path = .ok content := by
  refine read_eq_ok_iff.2 ⟨h, fun m hm => ?_, ?_⟩
  · have hne : m ≠ Location.endOf path := fun heq => hend (heq ▸ hm)
    rw [node?_put, if_neg hne, if_pos hm]
  · rw [node?_put, if_pos rfl]

/-- What is put at a path leaves what is read from another as it is. -/
def Apart (path other : String) : Prop :=
  Location.endOf other ∉ Location.endOf path :: Location.wayOf path ∧
    Location.endOf path ∉ Location.wayOf other

instance (path other : String) : Decidable (Apart path other) :=
  inferInstanceAs (Decidable (_ ∧ _))

theorem read_put_of_apart {other : String} (h : t.read path = .ok content)
    (hapart : Apart path other) (node : Node) : (t.put other node).read path = .ok content := by
  obtain ⟨hpath, hway, hend⟩ := read_eq_ok_iff.1 h
  obtain ⟨hother, hthrough⟩ := hapart
  rw [List.mem_cons, not_or] at hother
  refine read_eq_ok_iff.2 ⟨hpath, fun m hm => ?_, ?_⟩
  · have hne : m ≠ Location.endOf other := fun heq => hother.2 (heq ▸ hm)
    rw [node?_put, if_neg hne, hway m hm, ite_self]
  · rw [node?_put, if_neg (Ne.symm hother.1), if_neg hthrough, hend]

theorem read_putAll {entries : List (String × Node)} (h : t.read path = .ok content)
    (hapart : ∀ entry ∈ entries, Apart path entry.1) :
    (t.putAll entries).read path = .ok content := by
  induction entries generalizing t with
  | nil => exact h
  | cons entry entries ih =>
    rw [List.forall_mem_cons] at hapart
    exact ih (read_put_of_apart h hapart.1 entry.2) hapart.2

/-- Of files and directories put one after the other, a file is read from its path if those put
later are apart from it. -/
theorem read_ofList (before after : List (String × Node)) (h : IsPath path)
    (hend : Location.endOf path ∉ Location.wayOf path)
    (hapart : ∀ entry ∈ after, Apart path entry.1) :
    (ofList (before ++ (path, .file content) :: after)).read path = .ok content := by
  rw [ofList, putAll, List.foldl_append, List.foldl_cons]
  exact read_putAll (read_put h hend) hapart

end Tree

end ExprLexer
