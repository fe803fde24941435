import DotHttp.Function.Words
import DotHttp.Number.Numeral
import DotHttp.Text.Base64
import DotHttp.Text.LetterCase
import DotHttp.Text.Quoted

/-!
Built-in functions: calls such as `guid()` or `upper('x')` in a text are replaced by values. Names
are read in any letter case and start at the edge of a word. Each function has a pass of its own
over the text, in the order of `Function.all`, so a later function sees the values of earlier ones.
-/

namespace DotHttp

/-- A date and a time of day. -/
structure Moment where
  year : Nat
  month : Nat
  day : Nat
  hour : Nat
  minute : Nat
  second : Nat
  deriving DecidableEq, Repr

namespace Moment

def twoDigits (n : Nat) : String :=
  (if n < 10 then "0" else "") ++ toString n

def date (m : Moment) : String :=
  s!"{m.year}-{twoDigits m.month}-{twoDigits m.day}"

def time (m : Moment) : String :=
  s!"{twoDigits m.hour}:{twoDigits m.minute}:{twoDigits m.second}"

def dateTime (m : Moment) : String :=
  m.date ++ " " ++ m.time

end Moment

/-- Where the functions take chance and time from: the draws are numbered from zero. -/
structure Sources where
  draw : Nat → Nat
  localTime : Moment
  utcTime : Moment

inductive Function where
  | guid
  | string
  | number
  | base64
  | upper
  | lower
  | fullName
  | firstName
  | lastName
  | address
  | jobTitle
  | email
  | date
  | time
  | dateTime
  | utcDateTime
  | loremIpsum
  deriving DecidableEq, Repr

namespace Function

open DotHttp.Text

/-- All functions, in the order of their passes. -/
def all : List Function :=
  [guid, string, number, base64, upper, lower, fullName, firstName, lastName, address, jobTitle,
    email, date, time, dateTime, utcDateTime, loremIpsum]

def name : Function → String
  | guid => "guid"
  | string => "string"
  | number => "number"
  | base64 => "base64_encode"
  | upper => "upper"
  | lower => "lower"
  | fullName => "name"
  | firstName => "first_name"
  | lastName => "last_name"
  | address => "address"
  | jobTitle => "job_title"
  | email => "email"
  | date => "getdate"
  | time => "gettime"
  | dateTime => "getdatetime"
  | utcDateTime => "getutcdatetime"
  | loremIpsum => "lorem_ipsum"

/-- What stands between the parentheses of a call. -/
inductive Argument where
  | none
  | quoted (text : List Char)
  | count (digits : List Char)
  deriving DecidableEq, Repr

/-- Letters outside the Latin alphabet that are letters of it up to letter case. -/
def caseVariants : Char → List Char
  | 'i' => ['İ', 'ı']
  | 'k' => ['\u212a']
  | 's' => ['ſ']
  | _ => []

/-- Whether a character is a small Latin letter or sign of a name, up to letter case. -/
def sameLetter (pattern c : Char) : Bool :=
  c.toLower = pattern || (caseVariants pattern).contains c

/-- What follows a name in a text that begins with it, up to letter case. -/
def dropName? : List Char → List Char → Option (List Char)
  | [], s => some s
  | _ :: _, [] => none
  | p :: ps, c :: r => if sameLetter p c then dropName? ps r else none

/-- The text of a quoted argument up to its closing quote, and what follows. A backslash takes the
next character with it, which cannot be a line feed. -/
def quotedText? : List Char → Option (List Char × List Char)
  | [] => none
  | '\\' :: c :: r =>
    if c = '\n' then none else (quotedText? r).map fun (t, rest) => ('\\' :: c :: t, rest)
  | c :: r =>
    if c = '\x27' then some ([], r)
    else if c = '\\' then none
    else (quotedText? r).map fun (t, rest) => (c :: t, rest)

/-- What follows a closing parenthesis after optional white space. -/
def closed? (s : List Char) : Option (List Char) :=
  match stripLeft s with
  | ')' :: rest => some rest
  | _ => none

/-- Reads a quoted argument after the opening parenthesis. -/
def quotedArgument? (s : List Char) : Option (Argument × List Char) :=
  match stripLeft s with
  | c :: r =>
    if c = '\x27' then
      (quotedText? r).bind fun (text, r) => (closed? r).map fun rest => (.quoted text, rest)
    else none
  | [] => none

/-- Reads an optional number of words after the opening parenthesis. -/
def countArgument? (s : List Char) : Option (Argument × List Char) :=
  let digits := (stripLeft s).takeWhile isDecimal
  (closed? ((stripLeft s).dropWhile isDecimal)).map fun rest => (.count digits, rest)

/-- Reads the parentheses of a call and their content. -/
def argument? (f : Function) : List Char → Option (Argument × List Char)
  | '(' :: r =>
    match f with
    | .base64 | .upper | .lower => quotedArgument? r
    | .loremIpsum => countArgument? r
    | _ =>
      match r with
      | ')' :: rest => some (.none, rest)
      | _ => none
  | _ => none

/-- Reads a call at the start of a text. The character before it must not be of a word. -/
def call? (f : Function) (before : Option Char) (s : List Char) : Option (Argument × List Char) :=
  if before.any isWord then none else (dropName? f.name.toList s).bind (argument? f)

/-- The item of a list that a draw chooses. -/
def choose (items : Array String) (draw : Nat) : String :=
  items.getD (draw % items.size) ""

def letters : List Char :=
  "abcdefghijklmnopqrstuvwxyzABCDEFGHIJKLMNOPQRSTUVWXYZ0123456789".toList

/-- The filler text with a number of words. -/
def loremText (count : Nat) : String :=
  " ".intercalate ((List.range count).map (choose loremWords))

/-- How many draws a call takes. -/
def draws : Function → Nat
  | guid | number | firstName | lastName | address | jobTitle => 1
  | fullName => 2
  | email => 3
  | string => 20
  | _ => 0

/-- The number of words that an argument asks for; one hundred without digits. -/
def wordCount (digits : List Char) : Except Numeral.Fault Nat :=
  if digits.isEmpty then .ok 100 else Numeral.ofDigits (digits.filterMap digitValue?)

/-- The value of a call whose draws start at a number. -/
def value (f : Function) (src : Sources) (start : Nat) (arg : Argument) :
    Except Numeral.Fault (List Char) :=
  let draw (k : Nat) := src.draw (start + k)
  match f, arg with
  | .guid, _ => .ok (hexDigits 32 (draw 0 % Nat.pow 2 128))
  | .string, _ => .ok ((List.range 20).map fun k => letters.getD (draw k % letters.length) 'a')
  | .number, _ => .ok (toString (draw 0 % 101)).toList
  | .base64, .quoted text => .ok (Text.base64 (String.ofList text).toUTF8.toList)
  | .upper, .quoted text => .ok (Text.upper text)
  | .lower, .quoted text => .ok (Text.lower text)
  | .fullName, _ => .ok (choose firstNames (draw 0) ++ " " ++ choose lastNames (draw 1)).toList
  | .firstName, _ => .ok (choose firstNames (draw 0)).toList
  | .lastName, _ => .ok (choose lastNames (draw 0)).toList
  | .address, _ => .ok (choose addresses (draw 0)).toList
  | .jobTitle, _ => .ok (choose jobTitles (draw 0)).toList
  | .email, _ =>
    .ok (Text.lower (choose firstNames (draw 0)).toList ++ '.' ::
      Text.lower (choose lastNames (draw 1)).toList ++ '@' :: (choose emailDomains (draw 2)).toList)
  | .date, _ => .ok src.localTime.date.toList
  | .time, _ => .ok src.localTime.time.toList
  | .dateTime, _ => .ok src.localTime.dateTime.toList
  | .utcDateTime, _ => .ok src.utcTime.dateTime.toList
  | .loremIpsum, .count digits => (wordCount digits).map fun n => (loremText n).toList
  | _, _ => .ok []

theorem length_dropName? {name s rest : List Char} (h : dropName? name s = some rest) :
    s.length = name.length + rest.length := by
  induction name generalizing s with
  | nil =>
    simp only [dropName?, Option.some.injEq] at h
    simp [h]
  | cons p ps ih =>
    cases s with
    | nil => simp [dropName?] at h
    | cons c r =>
      simp only [dropName?] at h
      split at h
      · simp only [List.length_cons, ih h]
        omega
      · simp at h

theorem length_quotedText? {s t rest : List Char} (h : quotedText? s = some (t, rest)) :
    rest.length < s.length := by
  fun_induction quotedText? s generalizing t rest with
  | case1 => simp at h
  | case2 => simp at h
  | case3 c r _ ih =>
    simp only [Option.map_eq_some_iff, Prod.exists, Prod.mk.injEq] at h
    obtain ⟨u, v, huv, -, rfl⟩ := h
    have := ih huv
    simp only [List.length_cons]
    omega
  | case4 r =>
    simp only [Option.some.injEq, Prod.mk.injEq] at h
    obtain ⟨-, rfl⟩ := h
    simp
  | case5 => simp at h
  | case6 c r _ _ _ ih =>
    simp only [Option.map_eq_some_iff, Prod.exists, Prod.mk.injEq] at h
    obtain ⟨u, v, huv, -, rfl⟩ := h
    have := ih huv
    simp only [List.length_cons]
    omega

theorem length_closed? {s rest : List Char} (h : closed? s = some rest) :
    rest.length < s.length := by
  unfold closed? at h
  split at h
  · next r hr =>
    simp only [Option.some.injEq] at h
    have := (List.dropWhile_suffix isBlank (l := s)).length_le
    rw [show s.dropWhile isBlank = ')' :: r from hr] at this
    simp only [List.length_cons, h] at this
    omega
  · simp at h

theorem length_quotedArgument? {s rest : List Char} {arg : Argument}
    (h : quotedArgument? s = some (arg, rest)) : rest.length < s.length := by
  unfold quotedArgument? at h
  split at h
  · next c r hs =>
    split at h
    · simp only [Option.bind_eq_some_iff, Option.map_eq_some_iff, Prod.exists,
        Prod.mk.injEq] at h
      obtain ⟨t, r', ht, r'', hc, -, rfl⟩ := h
      have h₁ := length_quotedText? ht
      have h₂ := length_closed? hc
      have h₃ := (List.dropWhile_suffix isBlank (l := s)).length_le
      rw [show s.dropWhile isBlank = c :: r from hs] at h₃
      simp only [List.length_cons] at h₃
      omega
    · simp at h
  · simp at h

theorem length_countArgument? {s rest : List Char} {arg : Argument}
    (h : countArgument? s = some (arg, rest)) : rest.length < s.length := by
  unfold countArgument? at h
  simp only [Option.map_eq_some_iff, Prod.mk.injEq] at h
  obtain ⟨r, hc, -, rfl⟩ := h
  have h₁ := length_closed? hc
  have h₂ := (List.dropWhile_suffix isDecimal (l := stripLeft s)).length_le
  have h₃ : (stripLeft s).length ≤ s.length := (List.dropWhile_suffix isBlank (l := s)).length_le
  omega

theorem length_argument? {f : Function} {s rest : List Char} {arg : Argument}
    (h : argument? f s = some (arg, rest)) : rest.length < s.length := by
  unfold argument? at h
  split at h
  · next r =>
    rw [List.length_cons]
    split at h
    · exact Nat.lt_succ_of_lt (length_quotedArgument? h)
    · exact Nat.lt_succ_of_lt (length_quotedArgument? h)
    · exact Nat.lt_succ_of_lt (length_quotedArgument? h)
    · exact Nat.lt_succ_of_lt (length_countArgument? h)
    · split at h
      · simp only [Option.some.injEq, Prod.mk.injEq] at h
        obtain ⟨-, rfl⟩ := h
        simp only [List.length_cons]
        omega
      · simp at h
  · simp at h

theorem length_call? {f : Function} {before : Option Char} {s rest : List Char} {arg : Argument}
    (h : call? f before s = some (arg, rest)) : rest.length < s.length := by
  unfold call? at h
  split at h
  · simp at h
  · simp only [Option.bind_eq_some_iff] at h
    obtain ⟨r, hr, ha⟩ := h
    have := length_dropName? hr
    have := length_argument? ha
    omega

/-- Replaces the calls of one function; `before` is the last character passed, `next` the number
of the next draw. -/
def replaceFrom (f : Function) (src : Sources) (before : Option Char) (next : Nat)
    (s : List Char) : Except Numeral.Fault (List Char × Nat) :=
  match s with
  | [] => .ok ([], next)
  | c :: r =>
    match _h : f.call? before (c :: r) with
    | some (arg, rest) => do
      let v ← f.value src next arg
      let (t, next) ← replaceFrom f src (some ')') (next + f.draws) rest
      .ok (v ++ t, next)
    | none => do
      let (t, next) ← replaceFrom f src (some c) next r
      .ok (c :: t, next)
termination_by s.length
decreasing_by
  · exact length_call? _h
  · simp

def replaceAllOf (src : Sources) : List Function → Nat → List Char →
    Except Numeral.Fault (List Char × Nat)
  | [], next, s => .ok (s, next)
  | f :: fs, next, s => do
    let (t, next) ← f.replaceFrom src none next s
    replaceAllOf src fs next t

/-- Replaces every call, function by function; gives the text and the number of the next draw. -/
def substitute (src : Sources) (next : Nat) (text : String) :
    Except Numeral.Fault (String × Nat) :=
  (replaceAllOf src all next text.toList).map fun (t, next) => (String.ofList t, next)

end Function

end DotHttp
