import DotHttp.Proofs.RequestFile.Reading
import DotHttp.Proofs.Text.Lines
import Mathlib.Control.Monad.Basic

/-!
Request files one after the other. A file that is read on from where another ended gives the requests
of both: its first lines may fall to the request that is still open, but they cannot change it.
-/

namespace DotHttp.RequestFile

open DotHttp.Text

namespace State

/-- A state that has read, after some finished requests, the same lines as another from the start. Up
to the first request line it may hold its last request open; from there on the two agree. -/
structure Continues (done : List Request) (t s : State) : Prop where
  definitions : t.definitions = s.definitions
  pending : t.pending = s.pending
  inScript : t.inScript = s.inScript
  settled : t.Settled
  place :
    (s.current = none ∧ s.requests = [] ∧ s.body = [] ∧ s.inBody = false ∧
      t.finish.requests = done) ∨
    (t.current = s.current ∧ t.inBody = s.inBody ∧ t.body = s.body ∧
      t.requests = done ++ s.requests)

variable {done : List Request} {t s s' : State} {line line' : Nat} {raw text : List Char}

theorem Continues.finish (h : Continues done t s) :
    t.finish.requests = done ++ s.finish.requests := by
  obtain ⟨hc, hr, -, -, ht⟩ | ⟨hc, -, hb, hr⟩ := h.place
  · rw [ht, finish_requests s, hc, hr]
    exact (List.append_nil done).symm
  · rw [finish_requests, finish_requests, hc, hb, hr, List.append_assoc]

theorem Continues.settled_right (h : Continues done t s) : s.Settled := by
  obtain ⟨-, -, hb, hi, -⟩ | ⟨hc, hi, hb, -⟩ := h.place
  · exact fun _ => ⟨hb, hi⟩
  · intro hn
    rw [← hb, ← hi]
    exact h.settled (hc.trans hn)

/-- A line that belongs to a request is refused before the first request line. -/
theorem Continues.of_current (h : Continues done t s) {r : Request} (hr : s.current = some r) :
    t.current = some r ∧ t.inBody = s.inBody ∧ t.body = s.body ∧
      t.requests = done ++ s.requests := by
  obtain ⟨hc, -⟩ | ⟨hc, rest⟩ := h.place
  · simp [hr] at hc
  · exact ⟨hc.trans hr, rest⟩

/-- What stands outside of requests may change alike in both. -/
theorem Continues.outside (h : Continues done t s) {d d' : List Variable} {p p' : Pending}
    {b b' : Bool} (hd : d = d') (hp : p = p') (hb : b = b') :
    Continues done { t with definitions := d, pending := p, inScript := b }
      { s with definitions := d', pending := p', inScript := b' } := by
  refine ⟨hd, hp, hb, h.settled, ?_⟩
  obtain ⟨hc, hr, hb, hi, ht⟩ | place := h.place
  · rw [finish_requests] at ht
    exact .inl ⟨hc, hr, hb, hi, (finish_requests _).trans ht⟩
  · exact .inr place

theorem Continues.skipLine (h : Continues done t s) : Continues done t.skipLine s.skipLine := by
  obtain ⟨hd, hp, hb⟩ := skipLine_outside t
  obtain ⟨hd', hp', hb'⟩ := skipLine_outside s
  refine ⟨?_, ?_, ?_, h.settled.skipLine, ?_⟩
  · rw [hd, hd', h.definitions]
  · rw [hp, hp', h.pending]
  · rw [hb, hb', h.inScript]
  · obtain ⟨hc, hr, hb, hi, ht⟩ | ⟨hc, hi, hb, hr⟩ := h.place
    · have still : s.skipLine = s := by simp [State.skipLine, hc, hi]
      rw [still, skipLine_requests]
      exact .inl ⟨hc, hr, hb, hi, ht⟩
    · right
      unfold State.skipLine
      rw [hi, hc, hb]
      split
      · exact ⟨rfl, rfl, rfl, hr⟩
      · split
        · exact ⟨rfl, rfl, rfl, hr⟩
        · exact ⟨hc, hi, hb, hr⟩

theorem Continues.beginRequest (h : Continues done t s)
    (hs : s.beginRequest line text = .ok s') :
    ∃ t', t.beginRequest line' text = .ok t' ∧ Continues done t' s' := by
  obtain ⟨r, names, notes, rfl, begins⟩ := beginRequest_current hs
  obtain ⟨names', notes', ht⟩ := begins t line' h.definitions h.pending
  have body := h.settled.finish
  have body' := h.settled_right.finish
  refine ⟨_, ht, ?_, rfl, ?_, fun hn => (Option.some_ne_none r hn).elim,
    .inr ⟨rfl, ?_, ?_, h.finish⟩⟩
  · simp [h.definitions]
  · simp [h.inScript]
  · exact body.2.trans body'.2.symm
  · exact body.1.trans body'.1.symm

theorem Continues.addAssertion (h : Continues done t s) {kind : Assertion.Kind}
    {word expected : String} (hs : s.addAssertion line kind word expected = .ok s') :
    ∃ t', t.addAssertion line' kind word expected = .ok t' ∧ Continues done t' s' := by
  unfold State.addAssertion at hs ⊢
  split at hs
  · cases hs
  · next r hr =>
    obtain ⟨hc, hi, hb, hrs⟩ := h.of_current hr
    cases hs
    simp only [hc, expand, h.definitions]
    exact ⟨_, rfl, rfl, h.pending, h.inScript, fun hn => (Option.some_ne_none _ hn).elim,
      .inr ⟨rfl, hi, hb, hrs⟩⟩

theorem Continues.addContent (h : Continues done t s)
    (hs : s.addContent line raw text = .ok s') :
    ∃ t', t.addContent line' raw text = .ok t' ∧ Continues done t' s' := by
  unfold State.addContent at hs ⊢
  split at hs
  · cases hs
  · next r hr =>
    obtain ⟨hc, hi, hb, hrs⟩ := h.of_current hr
    simp only [hc, hi, hb, expand, h.definitions] at hs ⊢
    split at hs
    · cases hs
      exact ⟨_, rfl, rfl, h.pending, h.inScript, fun hn => (Option.some_ne_none _ hn).elim,
        .inr ⟨rfl, rfl, rfl, hrs⟩⟩
    · cases hs
      exact ⟨_, rfl, rfl, h.pending, h.inScript, fun hn => (Option.some_ne_none _ hn).elim,
        .inr ⟨hr.symm, rfl, rfl, hrs⟩⟩

/-- A line that the one state reads, the other reads to the same effect. -/
theorem Continues.readLine (h : Continues done t s) (hs : s.readLine line raw = .ok s')
    (line' : Nat) : ∃ t', t.readLine line' raw = .ok t' ∧ Continues done t' s' := by
  rw [readLine_eq] at hs ⊢
  rw [h.inScript]
  split at hs
  · next hb =>
    cases hs
    exact ⟨_, if_pos hb, h.outside h.definitions h.pending rfl⟩
  · next hb =>
    rw [if_neg hb]
    cases hl : Line.ofText (strip raw) with rw [hl] at hs
    | blank =>
      cases hs
      exact ⟨_, rfl, h.skipLine⟩
    | comment =>
      cases hs
      exact ⟨t, rfl, h⟩
    | ignored =>
      cases hs
      exact ⟨t, rfl, h⟩
    | directive keyword word value =>
      obtain ⟨p, rfl, directs⟩ := direct_pending hs
      exact ⟨_, directs t line' h.definitions h.pending, h.outside h.definitions rfl h.inScript⟩
    | unknownDirective word => cases hs
    | definition name value =>
      cases hs
      refine ⟨_, rfl, h.outside ?_ h.pending h.inScript⟩
      simp only [expand, h.definitions]
    | assertion kind word expected => exact h.addAssertion hs
    | request text => exact h.beginRequest hs
    | content text => exact h.addContent hs

end State

theorem State.Continues.readLines {done : List Request} {t s s' : State}
    {rest : List (List Char)} {line : Nat} (h : Continues done t s)
    (hs : readLines line s rest = .ok s') (line' : Nat) :
    ∃ t', RequestFile.readLines line' t rest = .ok t' ∧ Continues done t' s' := by
  induction rest generalizing t s line line' with
  | nil =>
    cases hs
    exact ⟨t, rfl, h⟩
  | cons raw rest ih =>
    simp only [RequestFile.readLines] at hs ⊢
    cases hr : s.readLine line raw with
    | error e => rw [hr] at hs; cases hs
    | ok s₁ =>
      rw [hr] at hs
      obtain ⟨t₁, ht, h₁⟩ := h.readLine hr line'
      rw [ht]
      exact ih h₁ hs (line' + 1)

theorem State.continues_start {s : State} (settled : s.Settled) (outside : s.inScript = false)
    (waiting : s.pending = .empty) : Continues s.finish.requests s (.start s.definitions) :=
  ⟨rfl, waiting, outside, settled, .inl ⟨rfl, rfl, rfl, rfl, rfl⟩⟩

/-- A file read from its start goes on like itself after nothing. -/
theorem settled_of_readText {vars : List Variable} {text : String} {s : State}
    (h : readText vars text = .ok s) : s.Settled := by
  have start : State.Continues [] (.start vars) (.start vars) :=
    State.continues_start (s := .start vars) (fun _ => ⟨rfl, rfl⟩) rfl rfl
  obtain ⟨t, ht, same⟩ := start.readLines h 1
  obtain rfl : s = t := Except.ok.inj (h.symm.trans ht)
  exact same.settled

/-- Two files joined by a line feed are read as the first and then, with the definitions at its end, the
second. The first must end outside a script block and leave no directive waiting. -/
theorem parse_append {vars : List Variable} {first second : String} {s : State} {p : Parsed}
    (hs : readText vars first = .ok s) (outside : s.inScript = false) (waiting : s.pending = .empty)
    (hp : parse s.definitions second = .ok p) :
    parse vars first = .ok s.result ∧ ∃ whole, parse vars (first ++ "\n" ++ second) = .ok whole ∧
      whole.requests = s.result.requests ++ p.requests := by
  refine ⟨by rw [parse, hs]; rfl, ?_⟩
  obtain ⟨s₂, hs₂, rfl⟩ : ∃ s₂, readText s.definitions second = .ok s₂ ∧ s₂.result = p := by
    unfold parse at hp
    cases hr : readText s.definitions second with
    | error e => rw [hr] at hp; cases hp
    | ok s₂ => rw [hr] at hp; exact ⟨s₂, rfl, Except.ok.inj hp⟩
  obtain ⟨between, hbetween, hlines⟩ := lines_append_newline first.toList second.toList
  have settled := settled_of_readText hs
  -- A blank line between the two is read as the last line of the first.
  obtain ⟨t, ht, joined⟩ : ∃ t, readLines (1 + (lines first.toList).length) s between = .ok t ∧
      State.Continues s.finish.requests t (.start s.definitions) := by
    have start := State.continues_start settled outside waiting
    obtain rfl | rfl := hbetween
    · exact ⟨s, rfl, start⟩
    · refine ⟨s.skipLine, ?_, start.skipLine⟩
      rw [readLines, readLine_nil outside]
      rfl
  obtain ⟨t', ht', same⟩ :=
    joined.readLines hs₂ (1 + (lines first.toList).length + between.length)
  refine ⟨t'.result, ?_, same.finish⟩
  have text : (first ++ "\n" ++ second).toList = first.toList ++ '\n' :: second.toList := by simp
  unfold readText at hs
  rw [parse, readText, text, hlines, readLines_append, hs]
  dsimp only
  rw [readLines_append, ht]
  dsimp only
  rw [ht']
  rfl

/-- The first lines of the second file stand in the open body of the first, whose variable it uses. -/
theorem parse_append_open_body :
    let first := "@host = e.com\nPOST https://\x7b\x7bhost\x7d\x7d\n\nbody"
    let second := "\n// note\n> \x7b%\nscript\n%\x7d\n# @name b\nGET https://\x7b\x7bhost\x7d\x7d/b"
    ∃ s p, readText [] first = .ok s ∧ s.inScript = false ∧ s.pending = .empty ∧
      parse s.definitions second = .ok p ∧
      ∃ whole, parse [] (first ++ "\n" ++ second) = .ok whole ∧
        whole.requests = s.result.requests ++ p.requests ∧
        whole.requests.map (fun r => (r.name, r.url, r.body)) =
          [(none, "https://e.com", some "body"), (some "b", "https://e.com/b", none)] := by
  intro first second
  let post : Request :=
    ⟨"POST", "https://e.com", none, [], none, [], [], none, none, none, none, none⟩
  let get : Request :=
    ⟨"GET", "https://e.com/b", some "b", [], none, [], [], none, none, none, none, none⟩
  have hs : readText [] first =
      .ok ⟨[], [⟨"host", "e.com"⟩], some post, true, ["body"], .empty, false, [], []⟩ := by
    decide +kernel
  have hp : parse [⟨"host", "e.com"⟩] second = .ok ⟨[get], []⟩ := by decide +kernel
  obtain ⟨-, whole, hw, requests⟩ := parse_append hs rfl rfl hp
  exact ⟨_, _, hs, rfl, rfl, hp, whole, hw, requests, by rw [requests]; decide +kernel⟩

end DotHttp.RequestFile
