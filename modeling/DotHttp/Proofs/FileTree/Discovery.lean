import DotHttp.CommandLine
import DotHttp.Proofs.FileTree.Path
import DotHttp.Proofs.Store.Latest
import Mathlib.Data.List.Induction
import Mathlib.Data.List.Lex

/-!
Discovery. Below a directory every file is found whose name has an ending, however deep it is and whatever the
directories on the way are called. Each is found once, and they come in the order of the names on their paths.
-/

namespace DotHttp.FileTree

open DotHttp.Text

/-- A tree in which everything is in a directory, under a name that a path can lead to. -/
@[mk_iff] structure Sound (t : FileTree) : Prop where
  named : ∀ l ∈ t.nodes.map Prod.fst, ∀ name ∈ l, Piece name ∧ name ≠ ".."
  placed : ∀ l ∈ t.nodes.map Prod.fst, t.node? l.dropLast = some .directory

instance (t : FileTree) : Decidable t.Sound := decidable_of_iff _ (sound_iff t).symm

/-- What is below a directory: its entries, and what is below those that are directories. -/
inductive Contains (t : FileTree) : Location → List String → Node → Prop
  | entry {loc : Location} {name : String} {node : Node} (there : t.node? (loc ++ [name]) = some node) :
      Contains t loc [name] node
  | inside {loc : Location} {name : String} {below : List String} {node : Node}
      (there : t.node? (loc ++ [name]) = some .directory) (within : Contains t (loc ++ [name]) below node) :
      Contains t loc (name :: below) node

/-- The way from a location down to a file whose name has an ending. -/
def wayDown? (ending : String) (loc : Location) : Location × Node → Option Location := fun (l, node) =>
  match node with
  | .file _ =>
    if loc.isPrefixOf l && (l.getLast?.any fun n => ending.toList.isSuffixOf n.toList) then
      some (l.drop loc.length)
    else none
  | .directory => none

variable {t : FileTree} {ending root path : String} {loc l : Location} {below : List String} {node : Node}

theorem filesEndingIn_of_look (there : t.look root = .found loc .directory) :
    t.filesEndingIn ending root =
      ((t.nodes.filterMap (wayDown? ending loc)).mergeSort locationLe).map fun l =>
        join root ("/".intercalate l) := by
  rw [filesEndingIn, there]
  rfl

theorem filesEndingIn_of_elsewhere (elsewhere : ∀ loc, t.look root ≠ .found loc .directory) :
    t.filesEndingIn ending root = [] := by
  unfold filesEndingIn
  split
  · next loc there => exact (elsewhere loc there).elim
  · rfl

/-! Nodes -/

theorem node?_eq_some_iff (below : l ≠ []) : t.node? l = some node ↔ (l, node) ∈ t.nodes := by
  rw [FileTree.node?, if_neg below, lookup_eq_some_iff_mem t.nodup]

theorem mem_keys (there : t.node? l = some node) (below : l ≠ []) : l ∈ t.nodes.map Prod.fst :=
  List.mem_map.2 ⟨_, (node?_eq_some_iff below).1 there, rfl⟩

/-- All that a location is in are directories. -/
theorem Sound.above (sound : t.Sound) {more : List String} (there : t.node? (l ++ more) = some node)
    (below : more ≠ []) : t.node? l = some .directory := by
  induction more using List.reverseRecOn generalizing node with
  | nil => exact (below rfl).elim
  | append_singleton more name ih =>
    rw [← List.append_assoc] at there
    have parent := sound.placed _ (mem_keys there (List.append_ne_nil_of_right_ne_nil _ (List.cons_ne_nil _ _)))
    rw [List.dropLast_concat] at parent
    cases more with
    | nil => rwa [List.append_nil] at parent
    | cons next more => exact ih parent (List.cons_ne_nil _ _)

theorem Contains.node? (h : t.Contains loc below node) : t.node? (loc ++ below) = some node := by
  induction h with
  | entry there => exact there
  | inside there within ih => rwa [List.append_assoc] at ih

/-- Going down from a directory one comes to everything that is below it. -/
theorem Sound.contains (sound : t.Sound) (there : t.node? (loc ++ below) = some node) (some : below ≠ []) :
    t.Contains loc below node := by
  induction below generalizing loc with
  | nil => exact (some rfl).elim
  | cons name more ih =>
    cases more with
    | nil => exact .entry there
    | cons next more =>
      have path : loc ++ name :: next :: more = loc ++ [name] ++ next :: more := by simp
      rw [path] at there
      exact .inside (sound.above there (List.cons_ne_nil _ _)) (ih there (List.cons_ne_nil _ _))

/-- Whoever walks along the names below a directory finds what is there. -/
theorem Contains.walk (h : t.Contains loc below node) (here : t.node? loc = some .directory)
    (down : ∀ name ∈ below, name ≠ "..") : t.walk loc below = .found (loc ++ below) node := by
  induction h with
  | entry there =>
    rw [FileTree.walk, here]
    dsimp only
    rw [if_neg (down _ List.mem_cons_self), FileTree.walk, there]
  | inside there within ih =>
    obtain ⟨first, rest⟩ := List.forall_mem_cons.1 down
    rw [FileTree.walk, here]
    dsimp only
    rw [if_neg first, ih there rest, List.append_assoc, List.singleton_append]

/-! Order -/

theorem nameLe_iff {a b : String} : nameLe a b = true ↔ ¬ b < a := by
  rw [nameLe, Bool.not_eq_true', decide_eq_false_iff_not, String.lt_iff_toList_lt]

theorem locationLe_iff {a b : Location} : locationLe a b = true ↔ ¬ b < a := by
  induction a generalizing b with
  | nil => simp [locationLe, List.not_lt_nil]
  | cons x xs ih =>
    cases b with
    | nil => simp [locationLe, List.nil_lt_cons]
    | cons y ys =>
      rw [locationLe, List.cons_lt_cons_iff]
      split
      · next same => simp [same, ih]
      · next apart => simp [Ne.symm apart, nameLe_iff]

/-- Different locations are put into strictly ascending order. -/
theorem pairwise_sorted {ls : List Location} (nodup : ls.Nodup) :
    (ls.mergeSort locationLe).Pairwise (· < ·) := by
  have sorted : (ls.mergeSort locationLe).Pairwise fun a b => locationLe a b = true := by
    apply List.pairwise_mergeSort
    · intro a b c hab hbc
      rw [locationLe_iff, not_lt] at hab hbc ⊢
      exact hab.trans hbc
    · intro a b
      rw [Bool.or_eq_true, locationLe_iff, locationLe_iff, not_lt, not_lt]
      exact le_total a b
  have distinct : (ls.mergeSort locationLe).Nodup := (List.mergeSort_perm ls _).nodup_iff.2 nodup
  refine (sorted.and distinct).imp ?_
  rintro a b ⟨le, ne⟩
  exact lt_of_le_of_ne (not_lt.1 (locationLe_iff.1 le)) ne

/-! Files with an ending -/

theorem wayDown?_eq_some_iff : wayDown? ending loc (l, node) = some below ↔
    l = loc ++ below ∧ (∃ bytes, node = .file bytes) ∧ ∃ name ∈ l.getLast?, ending.toList <:+ name.toList := by
  cases node with
  | directory =>
    refine iff_of_false nofun ?_
    rintro ⟨-, ⟨bytes, file⟩, -⟩
    cases file
  | file bytes =>
    have fits : (loc.isPrefixOf l && l.getLast?.any fun n => ending.toList.isSuffixOf n.toList) = true ↔
        loc <+: l ∧ ∃ name ∈ l.getLast?, ending.toList <:+ name.toList := by
      simp [Option.any_eq_true, List.isPrefixOf_iff_prefix, List.isSuffixOf_iff_suffix]
    constructor
    · intro taken
      rw [wayDown?] at taken
      split at taken
      · next h =>
        cases taken
        obtain ⟨⟨more, rfl⟩, ends⟩ := fits.1 h
        exact ⟨by rw [List.drop_left], ⟨bytes, rfl⟩, ends⟩
      · cases taken
    · rintro ⟨rfl, -, ends⟩
      rw [wayDown?, if_pos (fits.2 ⟨List.prefix_append _ _, ends⟩), List.drop_left]

theorem nodup_waysDown (t : FileTree) (ending : String) (loc : Location) :
    (t.nodes.filterMap (wayDown? ending loc)).Nodup := by
  rw [List.Nodup, List.pairwise_filterMap]
  refine (List.pairwise_map.1 t.nodup).imp ?_
  rintro ⟨l, node⟩ ⟨l', node'⟩ apart way taken way' taken' rfl
  exact apart ((wayDown?_eq_some_iff.1 taken).1.trans (wayDown?_eq_some_iff.1 taken').1.symm)

/-- A file at the end of a way down has the last name on the way. -/
theorem Sound.mem_waysDown_iff (sound : t.Sound) (here : t.node? loc = some .directory) :
    below ∈ t.nodes.filterMap (wayDown? ending loc) ↔ ∃ above name bytes, below = above ++ [name] ∧
      t.Contains loc below (.file bytes) ∧ ending.toList <:+ name.toList := by
  rw [List.mem_filterMap]
  constructor
  · rintro ⟨⟨l, node⟩, among, taken⟩
    obtain ⟨rfl, ⟨bytes, rfl⟩, name, last, ends⟩ := wayDown?_eq_some_iff.1 taken
    have proper : loc ++ below ≠ [] := by
      rintro none
      rw [none] at last
      cases last
    have there := (node?_eq_some_iff proper).2 among
    rcases List.eq_nil_or_concat below with rfl | ⟨above, name', rfl⟩
    · rw [List.append_nil, here] at there
      cases there
    · rw [List.concat_eq_append] at there last ⊢
      rw [← List.append_assoc, List.getLast?_concat] at last
      cases last
      have within := sound.contains there (List.append_ne_nil_of_right_ne_nil _ (List.cons_ne_nil _ _))
      exact ⟨above, name, bytes, rfl, within, ends⟩
  · rintro ⟨above, name, bytes, rfl, within, ends⟩
    have proper : loc ++ (above ++ [name]) ≠ [] := by simp
    refine ⟨_, (node?_eq_some_iff proper).1 within.node?, wayDown?_eq_some_iff.2 ⟨rfl, ⟨bytes, rfl⟩, name, ?_, ends⟩⟩
    rw [← List.append_assoc, List.getLast?_concat]
    rfl

theorem Contains.ne_nil (h : t.Contains loc below node) : below ≠ [] := by
  cases h <;> exact List.cons_ne_nil _ _

theorem Sound.named_below (sound : t.Sound) (h : t.Contains loc below node) :
    ∀ name ∈ below, Piece name ∧ name ≠ ".." := by
  intro name among
  have key := mem_keys h.node? (List.append_ne_nil_of_right_ne_nil _ h.ne_nil)
  exact sound.named _ key name (List.mem_append_right _ among)

/-- The files found are those at the ends of the ways down, in the order of these ways. -/
theorem Sound.exists_ways (sound : t.Sound) (ending root : String) : ∃ ways : List Location,
    t.filesEndingIn ending root = ways.map (fun below => join root ("/".intercalate below)) ∧
    ways.Pairwise (· < ·) ∧ ∀ below, below ∈ ways ↔
      ∃ loc above name bytes, t.look root = .found loc .directory ∧ below = above ++ [name] ∧
        t.Contains loc below (.file bytes) ∧ ending.toList <:+ name.toList := by
  by_cases there : ∃ loc, t.look root = .found loc .directory
  · obtain ⟨loc, there⟩ := there
    have here : t.node? loc = some .directory := node?_of_walk (walk_of_look there)
    refine ⟨_, filesEndingIn_of_look there, pairwise_sorted (nodup_waysDown t ending loc), ?_⟩
    intro below
    rw [(List.mergeSort_perm _ _).mem_iff, sound.mem_waysDown_iff here]
    simp [there]
  · refine ⟨[], filesEndingIn_of_elsewhere (not_exists.1 there), List.Pairwise.nil, ?_⟩
    intro below
    refine iff_of_false List.not_mem_nil ?_
    rintro ⟨loc, _, _, _, here, -⟩
    exact there ⟨loc, here⟩

theorem Sound.names_way (sound : t.Sound) (h : t.Contains loc below node) (root : String) :
    names (join root ("/".intercalate below)) = names root ++ below :=
  names_join_below root h.ne_nil fun name among => (sound.named_below h name among).1

theorem Sound.look_way (sound : t.Sound) (whole : t.mount = "") (there : t.look root = .found loc .directory)
    {above : List String} {name : String} {bytes : List UInt8}
    (h : t.Contains loc (above ++ [name]) (.file bytes)) :
    t.look (join root ("/".intercalate (above ++ [name]))) = .found (loc ++ (above ++ [name])) (.file bytes) := by
  have named := sound.named_below h
  apply look_join_below whole there fun name among => (named name among).1
  exact h.walk (node?_of_walk (walk_of_look there)) fun name among => (named name among).2

/-- Discovery from a directory: every file below it whose name ends in `.http` is listed, by the path that has
the names of the directory's path and then those on the way down to the file, and nothing else is. Seen from the
root of all files, that path leads to the file. The paths ascend strictly in the order of their names. -/
theorem discovery_complete (sound : t.Sound) (root : String) :
    let found := t.filesEndingIn CommandLine.requestFileEnding root
    (∀ path, path ∈ found ↔ ∃ loc above name bytes, t.look root = .found loc .directory ∧
      t.Contains loc (above ++ [name]) (.file bytes) ∧ ".http".toList <:+ name.toList ∧
      path = join root ("/".intercalate (above ++ [name])) ∧
      names path = names root ++ (above ++ [name]) ∧
      (t.mount = "" → t.look path = .found (loc ++ (above ++ [name])) (.file bytes))) ∧
    found.Pairwise fun p q => names p < names q := by
  obtain ⟨ways, same, ascending, ends⟩ := sound.exists_ways CommandLine.requestFileEnding root
  dsimp only
  rw [same]
  constructor
  · intro path
    rw [List.mem_map]
    constructor
    · rintro ⟨below, way, rfl⟩
      obtain ⟨loc, above, name, bytes, there, rfl, within, ending⟩ := (ends below).1 way
      exact ⟨loc, above, name, bytes, there, within, ending, rfl, sound.names_way within root,
        fun whole => sound.look_way whole there within⟩
    · rintro ⟨loc, above, name, bytes, there, within, ending, rfl, -, -⟩
      exact ⟨_, (ends _).2 ⟨loc, above, name, bytes, there, rfl, within, ending⟩, rfl⟩
  · rw [List.pairwise_map]
    refine ascending.imp_of_mem ?_
    intro below below' way way' before
    obtain ⟨_, _, _, _, -, -, within, -⟩ := (ends below).1 way
    obtain ⟨_, _, _, _, -, -, within', -⟩ := (ends below').1 way'
    rw [sound.names_way within, sound.names_way within']
    exact List.append_left_lt before

/-- Request files in a hidden directory, in one named like a request file, and in two whose order is another one
by names than by characters. -/
def nestedFiles : FileTree where
  nodes := [(["w"], .directory), (["w", "a.http"], .directory), (["w", "a.http", ".http"], .file []),
    (["w", "a!"], .directory), (["w", "a!", "b.http"], .file []), (["w", "a"], .directory),
    (["w", "a", "c.http"], .file []), (["w", "a", "c.https"], .file []), (["w", ".git"], .directory),
    (["w", ".git", "x.http"], .file [])]
  workingDirectory := ["w"]
  homeDirectory := ["h"]
  mount := ""
  nodup := by decide

theorem discovery_complete_nested :
    let found := nestedFiles.filesEndingIn CommandLine.requestFileEnding "."
    nestedFiles.Sound ∧ found = [".git/x.http", "a/c.http", "a!/b.http", "a.http/.http"] ∧
      (∃ bytes, nestedFiles.look "a.http/.http" = .found ["w", "a.http", ".http"] (.file bytes)) ∧
      found.Pairwise fun p q => names p < names q := by
  intro found
  have sound : nestedFiles.Sound := by decide +kernel
  have here : nestedFiles.look "." = .found ["w"] .directory := by decide +kernel
  have sorted : (nestedFiles.nodes.filterMap (wayDown? CommandLine.requestFileEnding ["w"])).mergeSort locationLe =
      [[".git", "x.http"], ["a", "c.http"], ["a!", "b.http"], ["a.http", ".http"]] := by
    refine List.Perm.eq_of_pairwise ?_ (pairwise_sorted (nodup_waysDown ..)) (by decide +kernel) ?_
    · intro a b _ _ before after
      exact (lt_asymm before after).elim
    · exact (List.mergeSort_perm _ _).trans (by decide +kernel)
  have all : found = [".git/x.http", "a/c.http", "a!/b.http", "a.http/.http"] := by
    rw [show found = _ from filesEndingIn_of_look here, sorted]
    decide +kernel
  obtain ⟨listed, ascending⟩ := discovery_complete sound "."
  have among : "a.http/.http" ∈ found := by simp [all]
  obtain ⟨loc, above, name, bytes, start, -, -, -, path, leads⟩ := (listed _).1 among
  rw [here] at start
  cases start
  have way : ["a.http", ".http"] = above ++ [name] := by
    have plain : names "." = [] := by decide +kernel
    rw [plain, List.nil_append] at path
    rw [← path]
    decide +kernel
  refine ⟨sound, all, ⟨bytes, ?_⟩, ascending⟩
  rw [leads rfl, ← way]
  rfl

end DotHttp.FileTree
