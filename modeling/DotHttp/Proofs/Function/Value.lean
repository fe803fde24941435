import DotHttp.Proofs.Function
import DotHttp.Proofs.Numeral
import Mathlib.Tactic.MkIffOfInductiveProp

/-!
The values of the functions that are called with nothing between the parentheses. Such a call never fails,
and whatever is drawn its value has no parentheses and ends in a letter or digit, so that it neither has a call
in it nor can be the beginning of a longer name.
-/

namespace DotHttp.Function

open DotHttp.Text

/-- Functions that are called with nothing between the parentheses. -/
def isBare : Function → Bool
  | base64 | upper | lower => false
  | _ => true

/-- What nothing between the parentheses is read as. -/
def bareArgument : Function → Argument
  | loremIpsum => .count []
  | _ => .none

/-- The values of a call with nothing between the parentheses. -/
inductive Values (src : Sources) : Function → List Char → Prop
  | guid {v : List Char} (length : v.length = 32) (digits : ∀ c ∈ v, c ∈ "0123456789abcdef".toList) :
      Values src .guid v
  | string {v : List Char} (length : v.length = 20) (drawn : ∀ c ∈ v, c ∈ letters) : Values src .string v
  | number {n : Nat} (h : n ≤ 100) : Values src .number (toString n).toList
  | fullName {first last : String} (h : first ∈ firstNames) (h' : last ∈ lastNames) :
      Values src .fullName (first ++ " " ++ last).toList
  | firstName {first : String} (h : first ∈ firstNames) : Values src .firstName first.toList
  | lastName {last : String} (h : last ∈ lastNames) : Values src .lastName last.toList
  | address {address : String} (h : address ∈ addresses) : Values src .address address.toList
  | jobTitle {title : String} (h : title ∈ jobTitles) : Values src .jobTitle title.toList
  | email {first last domain : String} (h : first ∈ firstNames) (h' : last ∈ lastNames)
      (h'' : domain ∈ emailDomains) : Values src .email
        (Text.lower first.toList ++ '.' :: Text.lower last.toList ++ '@' :: domain.toList)
  | date : Values src .date src.localTime.date.toList
  | time : Values src .time src.localTime.time.toList
  | dateTime : Values src .dateTime src.localTime.dateTime.toList
  | utcDateTime : Values src .utcDateTime src.utcTime.dateTime.toList
  | loremIpsum : Values src .loremIpsum (loremText 100).toList

theorem choose_mem {items : Array String} (h : 0 < items.size) (draw : Nat) : choose items draw ∈ items := by
  have inside : draw % items.size < items.size := Nat.mod_lt draw h
  rw [choose, Array.getD_eq_getD_getElem?, Array.getElem?_eq_getElem inside, Option.getD_some]
  exact Array.getElem_mem inside

theorem length_hexDigits (width n : Nat) : (hexDigits width n).length = width := by
  induction width generalizing n with
  | zero => rfl
  | succ width ih => rw [hexDigits, List.length_append, ih, List.length_singleton]

theorem mem_hexDigits {width n : Nat} {c : Char} (h : c ∈ hexDigits width n) :
    c ∈ "0123456789abcdef".toList := by
  have digit : ∀ d < 16, hexDigit d ∈ "0123456789abcdef".toList := by decide
  induction width generalizing n with
  | zero => cases h
  | succ width ih =>
    rw [hexDigits] at h
    rcases List.mem_append.1 h with earlier | last
    · exact ih earlier
    · rw [List.mem_singleton.1 last]
      exact digit _ (Nat.mod_lt n (by decide))

/-- A call with nothing between the parentheses has a value, whatever is drawn. -/
theorem exists_value {f : Function} (bare : f.isBare = true) (src : Sources) (start : Nat) :
    ∃ v, f.value src start f.bareArgument = .ok v ∧ Values src f v := by
  have first (draw : Nat) : choose firstNames draw ∈ firstNames := choose_mem (by decide +kernel) draw
  have last (draw : Nat) : choose lastNames draw ∈ lastNames := choose_mem (by decide +kernel) draw
  cases f with
  | base64 | upper | lower => cases bare
  | guid => exact ⟨_, rfl, .guid (length_hexDigits _ _) fun _ => mem_hexDigits⟩
  | string =>
    refine ⟨_, rfl, .string (by simp) ?_⟩
    intro c among
    obtain ⟨k, -, rfl⟩ := List.mem_map.1 among
    have inside : src.draw (start + k) % letters.length < letters.length := Nat.mod_lt _ (by decide)
    rw [List.getD_eq_getElem?_getD, List.getElem?_eq_getElem inside, Option.getD_some]
    exact List.getElem_mem inside
  | number => exact ⟨_, rfl, .number (Nat.le_of_lt_succ (Nat.mod_lt _ (by decide)))⟩
  | fullName => exact ⟨_, rfl, .fullName (first _) (last _)⟩
  | firstName => exact ⟨_, rfl, .firstName (first _)⟩
  | lastName => exact ⟨_, rfl, .lastName (last _)⟩
  | address => exact ⟨_, rfl, .address (choose_mem (by decide +kernel) _)⟩
  | jobTitle => exact ⟨_, rfl, .jobTitle (choose_mem (by decide +kernel) _)⟩
  | email => exact ⟨_, rfl, .email (first _) (last _) (choose_mem (by decide +kernel) _)⟩
  | date => exact ⟨_, rfl, .date⟩
  | time => exact ⟨_, rfl, .time⟩
  | dateTime => exact ⟨_, rfl, .dateTime⟩
  | utcDateTime => exact ⟨_, rfl, .utcDateTime⟩
  | loremIpsum => exact ⟨_, rfl, .loremIpsum⟩

/-- Whether a character is a letter or a digit. -/
def isSolid (c : Char) : Bool := isWord c && c != '_'

/-- A text without parentheses. -/
def Closed (v : List Char) : Prop := '(' ∉ v ∧ ')' ∉ v

instance (v : List Char) : Decidable (Closed v) := inferInstanceAs (Decidable (_ ∧ _))

/-- A text without parentheses that ends in a letter or digit. -/
@[mk_iff] structure Tidy (v : List Char) : Prop where
  closed : Closed v
  ending : v.getLast?.any isSolid = true

instance (v : List Char) : Decidable (Tidy v) := decidable_of_iff _ (tidy_iff v).symm

variable {u v : List Char}

theorem Closed.append (hu : Closed u) (hv : Closed v) : Closed (u ++ v) := by
  rw [Closed, List.mem_append, List.mem_append]
  exact ⟨not_or_intro hu.1 hv.1, not_or_intro hu.2 hv.2⟩

theorem Tidy.prepend (h : Tidy v) (closed : Closed u) : Tidy (u ++ v) := by
  refine ⟨closed.append h.closed, ?_⟩
  have ending := h.ending
  rw [List.getLast?_append]
  cases last : v.getLast? with rw [last] at ending
  | none => cases ending
  | some c => exact ending

theorem Tidy.exists_last (h : Tidy v) : ∃ d, v.getLast? = some d ∧ isWord d = true ∧ d ≠ '_' := by
  obtain ⟨d, last, solid⟩ := (Option.any_eq_true _ _).1 h.ending
  rw [isSolid, Bool.and_eq_true, bne_iff_ne] at solid
  exact ⟨d, last, solid⟩

theorem tidy_of_solid (nonempty : v ≠ []) (solid : ∀ c ∈ v, isSolid c = true) : Tidy v := by
  refine ⟨⟨?_, ?_⟩, ?_⟩
  · intro among
    cases solid _ among
  · intro among
    cases solid _ among
  · rw [List.getLast?_eq_some_getLast nonempty]
    exact solid _ (List.getLast_mem nonempty)

theorem isSolid_of_isDigit {c : Char} (h : c.isDigit = true) : isSolid c = true := by
  have small : c.toNat < 128 := by
    simp only [Char.isDigit, Bool.and_eq_true, decide_eq_true_eq, ge_iff_le, UInt32.le_iff_toNat_le] at h
    exact Nat.lt_of_le_of_lt h.2 (by decide)
  have apart : c ≠ '_' := by
    rintro rfl
    cases h
  simp [isSolid, isWord, small, Char.isAlphanum, h, apart]

theorem tidy_toString (n : Nat) : Tidy (toString n).toList := by
  have digits : (toString n).toList = Nat.toDigits 10 n := Nat.toList_repr
  rw [digits]
  apply tidy_of_solid Nat.toDigits_ne_nil
  intro c among
  exact isSolid_of_isDigit (Numeral.isDigit_of_mem_toDigits among)

theorem tidy_twoDigits (n : Nat) : Tidy (Moment.twoDigits n).toList := by
  rw [Moment.twoDigits, String.toList_append]
  apply (tidy_toString n).prepend
  split <;> decide

theorem tidy_date (m : Moment) : Tidy m.date.toList := by
  have parts : m.date = toString m.year ++ "-" ++ Moment.twoDigits m.month ++ "-" ++ Moment.twoDigits m.day := rfl
  rw [parts, String.toList_append]
  apply (tidy_twoDigits m.day).prepend
  rw [String.toList_append, String.toList_append, String.toList_append]
  exact (((tidy_toString m.year).closed.append (by decide)).append (tidy_twoDigits m.month).closed).append (by decide)

theorem tidy_time (m : Moment) : Tidy m.time.toList := by
  have parts : m.time =
      Moment.twoDigits m.hour ++ ":" ++ Moment.twoDigits m.minute ++ ":" ++ Moment.twoDigits m.second := rfl
  rw [parts, String.toList_append]
  apply (tidy_twoDigits m.second).prepend
  rw [String.toList_append, String.toList_append, String.toList_append]
  exact (((tidy_twoDigits m.hour).closed.append (by decide)).append (tidy_twoDigits m.minute).closed).append
    (by decide)

theorem tidy_dateTime (m : Moment) : Tidy m.dateTime.toList := by
  rw [Moment.dateTime, String.toList_append]
  apply (tidy_time m).prepend
  rw [String.toList_append]
  exact (tidy_date m).closed.append (by decide)

theorem tidy_intercalate {ws : List String} (nonempty : ws ≠ []) (h : ∀ w ∈ ws, Tidy w.toList) :
    Tidy (" ".intercalate ws).toList := by
  induction ws with
  | nil => exact (nonempty rfl).elim
  | cons w ws ih =>
    obtain ⟨first, rest⟩ := List.forall_mem_cons.1 h
    cases ws with
    | nil => simpa using first
    | cons w' ws =>
      rw [String.intercalate_cons_cons, String.toList_append]
      apply (ih (List.cons_ne_nil w' ws) rest).prepend
      rw [String.toList_append]
      exact first.closed.append (by decide)

theorem tidy_loremText {count : Nat} (h : 0 < count) : Tidy (loremText count).toList := by
  have tidy : ∀ w ∈ loremWords, Tidy w.toList := by decide +kernel
  apply tidy_intercalate
  · simpa using Nat.ne_of_gt h
  · intro w among
    obtain ⟨k, -, rfl⟩ := List.mem_map.1 among
    exact tidy _ (choose_mem (by decide +kernel) k)

/-- No value has a call in it or ends in a low line. -/
theorem Values.tidy {src : Sources} {f : Function} (h : Values src f v) : Tidy v := by
  have firsts : ∀ x ∈ firstNames, Tidy x.toList ∧ Closed (Text.lower x.toList) := by
    simp only [← Array.mem_toList_iff]
    decide +kernel
  have lasts : ∀ x ∈ lastNames, Tidy x.toList ∧ Closed (Text.lower x.toList) := by
    simp only [← Array.mem_toList_iff]
    decide +kernel
  cases h with
  | guid length digits =>
    have solid : ∀ c ∈ "0123456789abcdef".toList, isSolid c = true := List.all_eq_true.1 (by decide)
    apply tidy_of_solid
    · exact List.ne_nil_of_length_pos (length ▸ Nat.zero_lt_succ _)
    · exact fun c among => solid c (digits c among)
  | string length drawn =>
    have solid : ∀ c ∈ letters, isSolid c = true := List.all_eq_true.1 (by decide)
    apply tidy_of_solid
    · exact List.ne_nil_of_length_pos (length ▸ Nat.zero_lt_succ _)
    · exact fun c among => solid c (drawn c among)
  | number => exact tidy_toString _
  | @fullName first last h h' =>
    rw [String.toList_append]
    apply (lasts last h').1.prepend
    rw [String.toList_append]
    exact (firsts first h).1.closed.append (by decide)
  | firstName h => exact (firsts _ h).1
  | lastName h => exact (lasts _ h).1
  | address h =>
    have tidy : ∀ x ∈ addresses, Tidy x.toList := by decide +kernel
    exact tidy _ h
  | jobTitle h =>
    have tidy : ∀ x ∈ jobTitles, Tidy x.toList := by decide +kernel
    exact tidy _ h
  | @email first last domain h h' h'' =>
    have tidy : ∀ x ∈ emailDomains, Tidy x.toList := by decide +kernel
    have parts : Text.lower first.toList ++ '.' :: Text.lower last.toList ++ '@' :: domain.toList =
        Text.lower first.toList ++ ['.'] ++ Text.lower last.toList ++ ['@'] ++ domain.toList := by
      simp
    rw [parts]
    apply (tidy domain h'').prepend
    exact (((firsts first h).2.append (by decide)).append (lasts last h').2).append (by decide)
  | date => exact tidy_date _
  | time => exact tidy_time _
  | dateTime => exact tidy_dateTime _
  | utcDateTime => exact tidy_dateTime _
  | loremIpsum => exact tidy_loremText (by decide)

end DotHttp.Function
