import DotHttp.Proofs.CommandLine.Work
import DotHttp.Proofs.Run.Timeouts

/-!
Whether certificates are checked. A command sends every request in one way: unchecked if the option asks for it or
if the configured value, with its references resolved, counts as set. A reference always gives a text, and a text
counts as set unless it is empty, also one that says no.
-/

namespace DotHttp

/-- If this sends a request, then with this choice whether certificates are not checked. -/
def Happening.SentAs (insecure : Bool) : Happening → Prop
  | .send _ choice => choice = insecure
  | _ => True

namespace Run

variable {σ α β : Type} {P : Happening → Prop} {host : Host σ} {config : RunConfig} {tree : FileTree}

/-- Whatever these steps come to, they add happenings with a property to those before. -/
def Adds (P : Happening → Prop) (steps : Running σ α) : Prop :=
  ∀ s, ∃ hs, (runFrom steps s).2.happenings = s.happenings ++ hs ∧ ∀ h ∈ hs, P h

namespace Adds

theorem pure (a : α) : Adds P (Pure.pure a : Running σ α) :=
  fun _ => ⟨[], (List.append_nil _).symm, List.forall_mem_nil _⟩

theorem throw (f : Failure) : Adds P (MonadExcept.throw f : Running σ α) :=
  fun _ => ⟨[], (List.append_nil _).symm, List.forall_mem_nil _⟩

theorem bind {steps : Running σ α} {f : α → Running σ β} (h : Adds P steps) (hf : ∀ a, Adds P (f a)) :
    Adds P (steps >>= f) := by
  intro s
  obtain ⟨hs, happened, each⟩ := h s
  rw [runFrom_bind]
  generalize runFrom steps s = ran at happened ⊢
  obtain ⟨e | a, s₁⟩ := ran
  · exact ⟨hs, happened, each⟩
  · obtain ⟨hs', happened', each'⟩ := hf a s₁
    refine ⟨hs ++ hs', ?_, List.forall_mem_append.2 ⟨each, each'⟩⟩
    rw [happened', happened, List.append_assoc]

theorem attempt {steps : Running σ α} (h : Adds P steps) : Adds P (attempt steps) := by
  intro s
  rw [runFrom_attempt]
  exact h s

end Adds

theorem sentAs_notes (insecure : Bool) (ns : List Note) : Adds (Happening.SentAs insecure) (notes ns : Running σ Unit) := by
  intro s
  refine ⟨ns.map .note, ?_, List.forall_mem_map.2 fun _ _ => trivial⟩
  rw [runFrom_notes]
  rfl

theorem sentAs_noting (insecure : Bool) (result : Except Failure α × List Note) :
    Adds (Happening.SentAs insecure) (noting result : Running σ α) := by
  refine (sentAs_notes insecure _).bind fun _ => ?_
  split
  · exact .pure _
  · exact .throw _

theorem sentAs_requests (host : Host σ) (config : RunConfig) (vars : List Variable) (events : Option Nat)
    (path : String) (rs : List Request) :
    Adds (Happening.SentAs config.insecure) (requests host config vars events path rs) := by
  intro s
  obtain ⟨hs, happened, each⟩ :=
    requestsFrom_eachSend host config vars rs.length events (.start path) 0 rs s
  refine ⟨hs, happened, ?_⟩
  intro h among
  cases h with
  | send q insecure =>
    obtain ⟨earlier, later, split⟩ := List.append_of_mem among
    obtain ⟨r, -, sentFor⟩ := each earlier q insecure later split
    exact sentFor.flag
  | _ => trivial

theorem sentAs_wholeFile (tree : FileTree) (host : Host σ) (config : RunConfig) (path : String) :
    Adds (Happening.SentAs config.insecure) (wholeFile tree host config path) := by
  refine Adds.bind ?_ fun come => ?_
  · refine (sentAs_noting _ _).bind fun rs => ?_
    refine (sentAs_noting _ _).bind fun vars => ?_
    refine (sentAs_notes _ [_]).bind fun _ => ?_
    exact sentAs_requests host config vars none path rs
  · split
    · exact .pure _
    · exact .pure _

theorem sentAs_inSequence (tree : FileTree) (host : Host σ) (config : RunConfig) (paths : List String) :
    Adds (Happening.SentAs config.insecure) (inSequence tree host config paths) := by
  induction paths with
  | nil => exact .pure _
  | cons path rest ih =>
    refine (sentAs_wholeFile tree host config path).bind fun run => ?_
    exact ih.bind fun runs => .pure _

theorem sentAs_independently (tree : FileTree) (host : Host σ) (config : RunConfig) (paths : List String) :
    Adds (Happening.SentAs config.insecure) (independently tree host config paths) := by
  induction paths with
  | nil => exact .pure _
  | cons path rest ih =>
    refine (sentAs_wholeFile tree host config path).attempt.bind fun run => ?_
    exact ih.bind fun runs => .pure _

/-- However the files run and whatever they come to, they send every request as the options say. -/
theorem sentAs_files (tree : FileTree) (host : Host σ) (config : RunConfig) (paths : List String) :
    Adds (Happening.SentAs config.insecure) (files tree host config paths) := by
  unfold files
  split
  · refine (sentAs_independently tree host config paths).bind fun each => ?_
    split
    · exact .pure _
    · exact .throw _
  · exact (sentAs_inSequence tree host config paths).bind fun runs => .pure _

end Run

namespace Setting

/-- Whether a value says yes: it is true, or a text that a configuration file would have as true. -/
def affirms : Setting → Bool
  | .bool b => b
  | .text s =>
    match Yaml.scalar s.toList with
    | .ok (.bool b) => b
    | _ => false
  | _ => false

/-- Values that count as set although they do not say yes. -/
inductive Misread : Setting → Prop
  | text {s : String} (some : s ≠ "") (other : affirms (.text s) = false) : Misread (.text s)
  | integer {n : Int} (some : n ≠ 0) : Misread (.integer n)
  | number {x : Binary64} (some : x.isZero = false) : Misread (.number x)
  | list {items : List Setting} (some : items ≠ []) : Misread (.list items)
  | mapping {entries : List (Setting × Setting)} (some : entries ≠ []) : Misread (.mapping entries)
  | date (d : Date) : Misread (.date d)
  | timestamp (t : Timestamp) : Misread (.timestamp t)

/-- What says yes counts as set. -/
theorem isSet_of_affirms {v : Setting} (h : v.affirms = true) : v.isSet = true := by
  cases v with
  | bool b => exact h
  | text s =>
    rw [isSet, bne_iff_ne]
    rintro rfl
    cases h
  | _ => cases h

theorem isSet_iff (v : Setting) : v.isSet = true ↔ v.affirms = true ∨ v.Misread := by
  constructor
  · intro set
    cases v with
    | null => cases set
    | bool b => exact .inl set
    | text s =>
      cases yes : affirms (.text s) with
      | true => exact .inl rfl
      | false => exact .inr (.text (by simpa [isSet] using set) yes)
    | integer n => exact .inr (.integer (by simpa [isSet] using set))
    | number x => exact .inr (.number (by simpa [isSet] using set))
    | list items => exact .inr (.list (by simpa [isSet] using set))
    | mapping entries => exact .inr (.mapping (by simpa [isSet] using set))
    | date d => exact .inr (.date d)
    | timestamp t => exact .inr (.timestamp t)
  · rintro (yes | misread)
    · exact isSet_of_affirms yes
    · cases misread with
      | text some _ => simpa [isSet] using some
      | integer some | number some | list some | mapping some => simpa [isSet] using some
      | date | timestamp => rfl

end Setting

namespace CommandLine

variable {σ : Type} {host : Host σ} {around : Surroundings} {a : Arguments} {m : Machine σ} {args : List String}
  {p p' : Progress σ} {s : Setup}

/-- The default for whether certificates are not checked, with its references resolved; null without one. -/
def insecureDefault (tree : FileTree) (around : EnvFile.Bindings) (a : Arguments) : Except Failure Setting := do
  let document ← (Config.load tree (Config.find tree a.config)).1
  let defaults ← Config.resolve tree around document
  .ok ((Setting.lookup defaults.entries "insecure").getD .null)

theorem runConfig_insecure {ds : List (Setting × Setting)} {c : RunConfig} (h : runConfig a ds = .ok c) :
    c.insecure = isOn a.insecure ds "insecure" := by
  rw [runConfig] at h
  simp only [bind_eq_ok_iff] at h
  obtain ⟨delay, -, timeout, -, connection, -, jobs, -, ends⟩ := h
  cases ends
  rfl

theorem setup_insecure (h : runFrom (setup around a) p = (.ok s, p')) :
    ∃ v, insecureDefault p.machine.tree around.bindings a = .ok v ∧
      (s.config.insecure = true ↔ a.insecure = true ∨ v.isSet = true) := by
  have evaluated := setup_evaluates h
  rw [evaluate] at evaluated
  simp only [bind_eq_ok_iff] at evaluated
  obtain ⟨document, loaded, defaults, resolved, read⟩ := evaluated
  refine ⟨(Setting.lookup defaults.entries "insecure").getD .null, ?_, ?_⟩
  · rw [insecureDefault]
    simp only [bind_eq_ok_iff]
    exact ⟨document, loaded, defaults, resolved, rfl⟩
  · rw [runConfig_insecure read, isOn, Bool.or_eq_true]

/-- A directory with a request file, a configuration file of this text, and a file that says no. -/
def unchecked (config : String) : FileTree where
  nodes := [([".httprunner.yaml"], .file config.toUTF8.toList), ([".env"], .file "CHECK=no\n".toUTF8.toList),
    (["a.http"], .file "GET https://a\n".toUTF8.toList)]
  workingDirectory := []
  homeDirectory := []
  mount := ""
  nodup := by simp

def getA : Request :=
  ⟨"GET", "https://a", none, [], none, [], [], none, none, none, none, none⟩

end CommandLine

end DotHttp
