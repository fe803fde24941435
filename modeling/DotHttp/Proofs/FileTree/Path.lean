import DotHttp.FileTree
import Mathlib.Data.String.Basic
import Mathlib.Tactic.MkIffOfInductiveProp

/-!
Paths below a directory. A path keeps the names that it is made of, so the path of what is below a directory has
the directory's names first, and whoever walks along it comes through that directory.
-/

namespace DotHttp.FileTree

open DotHttp.Text

/-- A name that a path keeps. -/
@[mk_iff] structure Piece (name : String) : Prop where
  nonempty : name ≠ ""
  undotted : name ≠ "."
  whole : '/' ∉ name.toList

instance (name : String) : Decidable (Piece name) := decidable_of_iff _ (piece_iff name).symm

variable {t : FileTree} {path base name : String} {ns below : List String} {loc l : Location} {node : Node}

theorem piece_of_mem_names (h : name ∈ names path) : Piece name := by
  obtain ⟨s, kept, rfl⟩ := List.mem_map.1 h
  obtain ⟨piece, named⟩ := List.mem_filter.1 kept
  obtain ⟨nonempty, undotted⟩ : s ≠ [] ∧ s ≠ ['.'] := by simpa using named
  refine ⟨?_, ?_, ?_⟩
  · exact fun empty => nonempty (String.ofList_injective empty)
  · exact fun point => undotted (String.ofList_injective point)
  · rw [String.toList_ofList]
    exact not_mem_of_mem_splitOn piece

theorem splitOn_intercalate (nonempty : ns ≠ []) (h : ∀ n ∈ ns, '/' ∉ n.toList) :
    splitOn '/' ("/".intercalate ns).toList = ns.map String.toList := by
  induction ns with
  | nil => exact (nonempty rfl).elim
  | cons n rest ih =>
    obtain ⟨first, later⟩ := List.forall_mem_cons.1 h
    cases rest with
    | nil => rw [String.intercalate_singleton, splitOn_of_not_mem first, List.map_singleton]
    | cons m rest =>
      have joined : ("/".intercalate (n :: m :: rest)).toList =
          n.toList ++ '/' :: ("/".intercalate (m :: rest)).toList := by
        rw [String.intercalate_cons_cons, String.toList_append, String.toList_append, List.append_assoc]
        rfl
      rw [joined, splitOn_append, splitOn_of_not_mem first, ih (List.cons_ne_nil _ _) later]
      rfl

theorem splitOn_replicate (k : Nat) (s : List Char) :
    splitOn '/' (List.replicate k '/' ++ s) = List.replicate k [] ++ splitOn '/' s := by
  induction k with
  | zero => rfl
  | succ k ih => rw [List.replicate_succ, List.cons_append, splitOn, if_pos rfl, ih]; rfl

/-- Before the first name of a plain path there are slashes just if the path is absolute. -/
theorem exists_root (path : String) :
    ∃ k, (root path).toList = List.replicate k '/' ∧ (isAbsolute path = true ↔ k ≠ 0) := by
  unfold root isAbsolute
  split
  · next r h => exact ⟨1, rfl, by simp [h]⟩
  · next r _ h => exact ⟨2, rfl, by simp [h]⟩
  · next r _ _ h => exact ⟨1, rfl, by simp [h]⟩
  · next relative =>
    refine ⟨0, rfl, ?_⟩
    cases h : path.toList with
    | nil => simp
    | cons c r =>
      have first : '/' ≠ c := fun same => relative r (by rw [h, same])
      simp [first]

/-- The pieces of a path that is put together of names: empty ones for the slashes at its start, and the names. -/
theorem splitOn_rooted (base : String) (nonempty : ns ≠ []) (h : ∀ n ∈ ns, Piece n) :
    ∃ k, splitOn '/' (root base ++ "/".intercalate ns).toList = List.replicate k [] ++ ns.map String.toList := by
  obtain ⟨k, slashes, -⟩ := exists_root base
  refine ⟨k, ?_⟩
  rw [String.toList_append, slashes, splitOn_replicate,
    splitOn_intercalate nonempty fun n hn => (h n hn).whole]

theorem names_rooted (base : String) (nonempty : ns ≠ []) (h : ∀ n ∈ ns, Piece n) :
    names (root base ++ "/".intercalate ns) = ns := by
  obtain ⟨k, pieces⟩ := splitOn_rooted base nonempty h
  have empty : (List.replicate k ([] : List Char)).filter (fun s => s != [] && s != ['.']) = [] := by
    rw [List.filter_eq_nil_iff]
    intro s hs
    rw [List.eq_of_mem_replicate hs]
    decide
  have kept : (ns.map String.toList).filter (fun s => s != [] && s != ['.']) = ns.map String.toList := by
    rw [List.filter_eq_self]
    intro s hs
    obtain ⟨n, hn, rfl⟩ := List.mem_map.1 hs
    have piece := h n hn
    have nonempty : n.toList ≠ [] := fun none => piece.nonempty (String.toList_inj.1 none)
    have undotted : n.toList ≠ ['.'] := fun point => piece.undotted (String.toList_inj.1 point)
    simp [nonempty, undotted]
  rw [names, pieces, List.filter_append, empty, kept, List.nil_append, List.map_map]
  simp

theorem lastPiece_rooted (base : String) (h : ∀ n ∈ ns ++ [name], Piece n) :
    lastPiece (root base ++ "/".intercalate (ns ++ [name])) = name.toList := by
  obtain ⟨k, pieces⟩ := splitOn_rooted base (List.append_ne_nil_of_right_ne_nil ns (List.cons_ne_nil _ _)) h
  rw [lastPiece, pieces, List.map_append, ← List.append_assoc, List.map_singleton, List.getLast?_concat,
    Option.getD_some]

theorem not_isAbsolute_intercalate (nonempty : ns ≠ []) (h : ∀ n ∈ ns, Piece n) :
    isAbsolute ("/".intercalate ns) = false := by
  rw [Bool.eq_false_iff]
  intro absolute
  obtain ⟨rest, begins⟩ := List.isPrefixOf_iff_prefix.1 absolute
  obtain ⟨n, more, rfl⟩ := List.exists_cons_of_ne_nil nonempty
  have pieces := splitOn_intercalate nonempty fun n hn => (h n hn).whole
  rw [← begins, List.singleton_append, splitOn, if_pos rfl, List.map_cons, List.cons.injEq] at pieces
  exact (h n List.mem_cons_self).nonempty (String.toList_inj.1 pieces.1.symm)

/-- The path of what has some names below a directory. -/
theorem join_below (base : String) (nonempty : below ≠ []) (h : ∀ n ∈ below, Piece n) :
    join base ("/".intercalate below) = root base ++ "/".intercalate (names base ++ below) := by
  have kept : names ("/".intercalate below) = below := by
    have plain := names_rooted "" nonempty h
    rwa [show root "" = "" by decide, String.empty_append] at plain
  unfold join
  rw [not_isAbsolute_intercalate nonempty h, if_neg Bool.false_ne_true, kept]
  split
  · next none => exact (nonempty rfl).elim
  · rfl

theorem pieces_below (base : String) (h : ∀ n ∈ below, Piece n) : ∀ n ∈ names base ++ below, Piece n :=
  List.forall_mem_append.2 ⟨fun _ => piece_of_mem_names, h⟩

theorem names_join_below (base : String) (nonempty : below ≠ []) (h : ∀ n ∈ below, Piece n) :
    names (join base ("/".intercalate below)) = names base ++ below := by
  rw [join_below base nonempty h]
  exact names_rooted base (List.append_ne_nil_of_right_ne_nil _ nonempty) (pieces_below base h)

theorem isAbsolute_join_below (base : String) (nonempty : below ≠ []) (h : ∀ n ∈ below, Piece n) :
    isAbsolute (join base ("/".intercalate below)) = isAbsolute base := by
  rw [join_below base nonempty h]
  obtain ⟨k, slashes, absolute⟩ := exists_root base
  cases k with
  | zero =>
    have relative : isAbsolute base = false := by
      rw [Bool.eq_false_iff, Ne, absolute]
      exact fun some => some rfl
    have plain : root base = "" := String.toList_inj.1 slashes
    rw [relative, plain, String.empty_append]
    exact not_isAbsolute_intercalate (List.append_ne_nil_of_right_ne_nil _ nonempty) (pieces_below base h)
  | succ k =>
    rw [absolute.2 (Nat.succ_ne_zero k), isAbsolute, String.toList_append, slashes]
    rfl

theorem lastPiece_join_below (base : String) (h : ∀ n ∈ below ++ [name], Piece n) :
    lastPiece (join base ("/".intercalate (below ++ [name]))) = name.toList := by
  have nonempty : below ++ [name] ≠ [] := List.append_ne_nil_of_right_ne_nil _ (List.cons_ne_nil _ _)
  rw [join_below base nonempty h, ← List.append_assoc]
  apply lastPiece_rooted
  rw [List.append_assoc]
  exact pieces_below base h

/-! Walking -/

/-- What is found is at the location where it is found. -/
theorem node?_of_walk {ns : List String} (h : t.walk loc ns = .found l node) : t.node? l = some node := by
  induction ns generalizing loc with
  | nil =>
    rw [walk] at h
    split at h
    · next there => cases h; exact there
    · cases h
  | cons name rest ih =>
    rw [walk] at h
    split at h
    · split at h
      · split at h
        · exact ih h
        · split at h
          · cases h
            rfl
          · cases h
      · exact ih h
    · cases h
    · cases h

/-- Where nothing is above the root, a walk goes on from what the first names lead to. -/
theorem walk_append (whole : t.mount = "") (h : t.walk loc ns = .found l node) (more : List String) :
    t.walk loc (ns ++ more) = t.walk l more := by
  induction ns generalizing loc with
  | nil =>
    rw [walk] at h
    split at h
    · cases h; rfl
    · cases h
  | cons name rest ih =>
    have above : t.directoryOf? loc = some loc.dropLast := by simp [directoryOf?, whole]
    rw [walk, above] at h
    rw [List.cons_append, walk, above]
    split at h
    · split at h
      · next up =>
        rw [if_pos up]
        exact ih h
      · next down =>
        rw [if_neg down]
        exact ih h
    · cases h
    · cases h

theorem start_of_whole (whole : t.mount = "") (path : String) :
    t.start path = (if isAbsolute path then [] else t.workingDirectory, names path) := by
  have below : t.belowMount path = names path := by
    rw [belowMount, whole]
    exact congrArg names String.ofList_toList
  rw [start, whole, below]
  cases isAbsolute path <;> rfl

theorem walk_of_look (h : t.look path = .found l node) :
    t.walk (t.start path).1 (t.start path).2 = .found l node := by
  unfold look at h
  dsimp only at h
  split at h
  · next loc bytes found =>
    split at h
    · cases h
    · exact found.trans h
  · exact h

/-- A path below a directory leads to the file that is found on the way from there. -/
theorem look_join_below (whole : t.mount = "") (there : t.look base = .found loc .directory)
    (h : ∀ n ∈ below ++ [name], Piece n) {bytes : List UInt8}
    (walked : t.walk loc (below ++ [name]) = .found l (.file bytes)) :
    t.look (join base ("/".intercalate (below ++ [name]))) = .found l (.file bytes) := by
  have nonempty : below ++ [name] ≠ [] := List.append_ne_nil_of_right_ne_nil _ (List.cons_ne_nil _ _)
  have last := h name (List.mem_append_right _ List.mem_cons_self)
  have first := walk_of_look there
  rw [start_of_whole whole] at first
  unfold look
  rw [start_of_whole whole, isAbsolute_join_below base nonempty h, names_join_below base nonempty h]
  dsimp only
  rw [walk_append whole first, walked, lastPiece_join_below base h]
  have named : name.toList ≠ [] := fun none => last.nonempty (String.toList_inj.1 none)
  have undotted : name.toList ≠ ['.'] := fun point => last.undotted (String.toList_inj.1 point)
  simp [named, undotted]

end DotHttp.FileTree
