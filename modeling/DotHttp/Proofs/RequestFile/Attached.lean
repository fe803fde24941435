import DotHttp.Proofs.RequestFile.Effect
import Mathlib.Data.List.Basic
import Mathlib.Data.Option.Basic

/-!
What the directives on some lines come to. A line with a directive gives its value to one keyword,
where it takes the place of an earlier one; conditions are kept one and all.
-/

namespace DotHttp.RequestFile

open DotHttp.Text

/-- The lines outside of script blocks; one may be open before the first line. -/
def unscripted (inside : Bool) : List (List Char) → List (List Char)
  | [] => []
  | raw :: rest =>
    let script := opensScript (strip raw) || inside
    (if script then [] else [raw]) ++ unscripted (script && !closesScript (strip raw)) rest

def beginsRequest (raw : List Char) : Bool :=
  match Line.ofText (strip raw) with
  | .request _ => true
  | _ => false

def givesDirective (raw : List Char) : Bool :=
  match Line.ofText (strip raw) with
  | .directive _ _ _ => true
  | _ => false

theorem givesDirective_iff {raw : List Char} : givesDirective raw = true ↔
    ∃ keyword word value, Line.ofText (strip raw) = .directive keyword word value := by
  unfold givesDirective
  split
  · next kind => exact iff_of_true rfl ⟨_, _, _, kind⟩
  · next other =>
    refine iff_of_false Bool.false_ne_true ?_
    rintro ⟨keyword, word, value, kind⟩
    exact other keyword word value kind

/-- The variables known after one more line. -/
def learn (vars : List Variable) (raw : List Char) : List Variable :=
  match Line.ofText (strip raw) with
  | .definition name value => State.setVariable name (Variable.expand vars value) vars
  | _ => vars

/-- The value that a line gives to a keyword. -/
def valueOf (keyword : Keyword) (raw : List Char) : Option String :=
  match Line.ofText (strip raw) with
  | .directive k _ value => if k = keyword then some value else none
  | _ => none

/-- The value that the last line with a keyword gives to it. -/
def lastValue (keyword : Keyword) (ls : List (List Char)) : Option String :=
  (ls.filterMap (valueOf keyword)).getLast?

/-- What is read from the condition of a line with the variables known there filled in. -/
def conditionOf (vars : List Variable) (raw : List Char) : Option (Option Condition) :=
  match Line.ofText (strip raw) with
  | .directive (.condition negated) _ value =>
    some (Condition.parse? (Variable.expand vars value) negated)
  | _ => none

/-- What is read from all conditions of some lines, in order. -/
def conditionsOf (vars : List Variable) : List (List Char) → List (Option Condition)
  | [] => []
  | raw :: rest => (conditionOf vars raw).toList ++ conditionsOf (learn vars raw) rest

/-- The time that a duration literal stands for, if there is one. -/
def TimeOf (bare : Nat) (value : Option String) (time : Option Nat) : Prop :=
  value.map (fun v => Duration.read v.toList bare) = time.map fun n => .ok (some n)

/-- What the directives on some lines come to: of each kind the last one, and all conditions. -/
structure Attached (vars : List Variable) (ls : List (List Char)) (p : Pending) : Prop where
  name : p.name = lastValue .name ls
  dependsOn : p.dependsOn = lastValue .dependsOn ls
  conditions : conditionsOf vars ls = p.conditions.map some
  timeout : TimeOf 1000 (lastValue .timeout ls) p.timeout
  connectionTimeout : TimeOf 1000 (lastValue .connectionTimeout ls) p.connectionTimeout
  preDelay : TimeOf 1 (lastValue .preDelay ls) p.preDelay
  postDelay : TimeOf 1 (lastValue .postDelay ls) p.postDelay

variable {vars : List Variable} {ls : List (List Char)} {raw : List Char} {p q : Pending}

theorem conditionsOf_append (vars : List Variable) (xs ys : List (List Char)) :
    conditionsOf vars (xs ++ ys) =
      conditionsOf vars xs ++ conditionsOf (xs.foldl learn vars) ys := by
  induction xs generalizing vars with
  | nil => rfl
  | cons x xs ih =>
    rw [List.cons_append, conditionsOf, conditionsOf, ih, List.append_assoc, List.foldl_cons]

theorem conditionsOf_concat (vars : List Variable) (ls : List (List Char)) (raw : List Char) :
    conditionsOf vars (ls ++ [raw]) =
      conditionsOf vars ls ++ (conditionOf (ls.foldl learn vars) raw).toList := by
  rw [conditionsOf_append, conditionsOf, conditionsOf, List.append_nil]

theorem lastValue_concat (keyword : Keyword) (ls : List (List Char)) (raw : List Char) :
    lastValue keyword (ls ++ [raw]) = (valueOf keyword raw).or (lastValue keyword ls) := by
  unfold lastValue
  rw [List.filterMap_append, List.getLast?_append]
  cases h : valueOf keyword raw <;> simp [h]

theorem TimeOf.unique {bare : Nat} {value : Option String} {m n : Option Nat}
    (hm : TimeOf bare value m) (hn : TimeOf bare value n) : m = n := by
  refine Option.map_injective ?_ (hm.symm.trans hn)
  rintro i j ⟨⟩
  rfl

theorem Attached.unique (hp : Attached vars ls p) (hq : Attached vars ls q) : p = q := by
  have conditions : p.conditions = q.conditions :=
    (Option.some_injective _).list_map (hp.conditions.symm.trans hq.conditions)
  have timeout := hp.timeout.unique hq.timeout
  have connectionTimeout := hp.connectionTimeout.unique hq.connectionTimeout
  have preDelay := hp.preDelay.unique hq.preDelay
  have postDelay := hp.postDelay.unique hq.postDelay
  cases p
  cases q
  cases hp.name.trans hq.name.symm
  cases hp.dependsOn.trans hq.dependsOn.symm
  cases conditions
  cases timeout
  cases connectionTimeout
  cases preDelay
  cases postDelay
  rfl

theorem Attached.nil (vars : List Variable) : Attached vars [] .empty :=
  ⟨rfl, rfl, rfl, rfl, rfl, rfl, rfl⟩

/-- A line without a directive changes nothing. -/
theorem Attached.other (h : Attached vars ls p) (none : givesDirective raw = false) :
    Attached vars (ls ++ [raw]) p := by
  have last (keyword : Keyword) : lastValue keyword (ls ++ [raw]) = lastValue keyword ls := by
    rw [lastValue_concat]
    unfold valueOf
    split
    · next kind => simp [givesDirective, kind] at none
    · rfl
  have conditions : conditionsOf vars (ls ++ [raw]) = conditionsOf vars ls := by
    rw [conditionsOf_concat]
    unfold conditionOf
    split
    · next kind => simp [givesDirective, kind] at none
    · exact List.append_nil _
  exact ⟨last _ ▸ h.name, last _ ▸ h.dependsOn, conditions ▸ h.conditions, last _ ▸ h.timeout,
    last _ ▸ h.connectionTimeout, last _ ▸ h.preDelay, last _ ▸ h.postDelay⟩

/-- A directive gives its value to its keyword and leaves the others as they are. -/
theorem Attached.directive {s : State} {keyword : Keyword} {word value : String}
    (h : Attached vars ls s.pending) (known : s.definitions = ls.foldl learn vars)
    (kind : Line.ofText (strip raw) = .directive keyword word value)
    (directed : Directed s keyword value p) : Attached vars (ls ++ [raw]) p := by
  have own : lastValue keyword (ls ++ [raw]) = some value := by
    rw [lastValue_concat, valueOf, kind]
    simp
  have other {k : Keyword} (apart : keyword ≠ k) : lastValue k (ls ++ [raw]) = lastValue k ls := by
    rw [lastValue_concat, valueOf, kind]
    simp [apart]
  have timed {bare n : Nat} (read : Duration.read value.toList bare = .ok (some n)) :
      TimeOf bare (lastValue keyword (ls ++ [raw])) (some n) := by
    rw [own]
    exact congrArg some read
  have name (apart : keyword ≠ .name) := h.name.trans (other apart).symm
  have dependsOn (apart : keyword ≠ .dependsOn) := h.dependsOn.trans (other apart).symm
  have conditions (apart : ∀ negated, keyword ≠ .condition negated) :
      conditionsOf vars (ls ++ [raw]) = s.pending.conditions.map some := by
    rw [conditionsOf_concat, conditionOf, kind, h.conditions]
    cases keyword with
    | condition negated => exact (apart negated rfl).elim
    | _ => exact List.append_nil _
  have timeout (apart : keyword ≠ .timeout) := (other apart).symm ▸ h.timeout
  have connectionTimeout (apart : keyword ≠ .connectionTimeout) :=
    (other apart).symm ▸ h.connectionTimeout
  have preDelay (apart : keyword ≠ .preDelay) := (other apart).symm ▸ h.preDelay
  have postDelay (apart : keyword ≠ .postDelay) := (other apart).symm ▸ h.postDelay
  cases directed with
  | name => exact ⟨own.symm, dependsOn nofun, conditions nofun, timeout nofun,
      connectionTimeout nofun, preDelay nofun, postDelay nofun⟩
  | dependsOn => exact ⟨name nofun, own.symm, conditions nofun, timeout nofun,
      connectionTimeout nofun, preDelay nofun, postDelay nofun⟩
  | @condition negated value c read =>
    have asked : conditionOf (ls.foldl learn vars) raw = some (some c) := by
      rw [conditionOf, kind, ← known]
      exact congrArg some read
    have all : conditionsOf vars (ls ++ [raw]) = (s.pending.conditions ++ [c]).map some := by
      rw [conditionsOf_concat, asked, h.conditions, List.map_append]
      rfl
    exact ⟨name nofun, dependsOn nofun, all, timeout nofun, connectionTimeout nofun, preDelay nofun,
      postDelay nofun⟩
  | timeout read => exact ⟨name nofun, dependsOn nofun, conditions nofun, timed read,
      connectionTimeout nofun, preDelay nofun, postDelay nofun⟩
  | connectionTimeout read => exact ⟨name nofun, dependsOn nofun, conditions nofun, timeout nofun,
      timed read, preDelay nofun, postDelay nofun⟩
  | preDelay read => exact ⟨name nofun, dependsOn nofun, conditions nofun, timeout nofun,
      connectionTimeout nofun, timed read, postDelay nofun⟩
  | postDelay read => exact ⟨name nofun, dependsOn nofun, conditions nofun, timeout nofun,
      connectionTimeout nofun, preDelay nofun, timed read⟩

end DotHttp.RequestFile
