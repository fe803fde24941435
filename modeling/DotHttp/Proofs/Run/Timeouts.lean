import DotHttp.Dispatch
import DotHttp.Proofs.Run.Scripted

/-!
The timeouts that a request is sent with. Each is the first one that is set to more than zero: that
of the request, that of the options, or the default. A zero counts as not set, so it is passed over.
-/

namespace DotHttp

namespace Happening

/-- Each request that is sent has a property, told with the number of events before it. -/
def EachSend (P : Nat → Request → Bool → Prop) (hs : List Happening) : Prop :=
  ∀ earlier q insecure later, hs = earlier ++ .send q insecure :: later →
    P (events earlier).length q insecure

variable {P Q : Nat → Request → Bool → Prop} {hs hs' : List Happening}

theorem EachSend.mono (h : EachSend P hs) (imp : ∀ i q insecure, P i q insecure → Q i q insecure) :
    EachSend Q hs := by
  intro earlier q insecure later split
  exact imp _ q insecure (h earlier q insecure later split)

theorem EachSend.append (h : EachSend P hs)
    (h' : EachSend (fun i => P ((events hs).length + i)) hs') : EachSend P (hs ++ hs') := by
  intro earlier q insecure later split
  rcases List.append_eq_append_iff.1 split with ⟨more, rfl, split'⟩ | ⟨more, rfl, split'⟩
  · have after := h' more q insecure later split'
    rwa [events_append, List.length_append]
  · cases more with
    | nil =>
      have first := h' [] q insecure later split'.symm
      have nothing : events [] = [] := rfl
      rwa [nothing, List.length_nil, Nat.add_zero, List.append_nil] at first
    | cons x more =>
      cases split'
      exact h earlier q insecure more rfl

theorem Quiet.eachSend (h : Quiet hs) : EachSend P hs := by
  rintro earlier q insecure later rfl
  cases h _ (List.mem_append_right _ List.mem_cons_self)

theorem eachSend_send {q : Request} {insecure : Bool} (h : P 0 q insecure) :
    EachSend P [.send q insecure] := by
  intro earlier q' insecure' later split
  cases earlier with
  | nil =>
    cases split
    exact h
  | cons x rest => simp at split

theorem eachSend_event (e : Event) : EachSend P [.event e] := by
  intro earlier q insecure later split
  cases earlier with
  | nil => cases split
  | cons x rest => simp at split

end Happening

/-- A timeout taken from the first of its own value, the configured one and the default that is more
than zero. -/
structure InForce (own configured : Option Nat) (default timeout : Nat) : Prop where
  positive : timeout = ((own.filter (0 < ·)).or (configured.filter (0 < ·))).getD default
  /-- It is the first one that is set, unless this one is zero. -/
  precedence : timeout = (own.or configured).getD default ↔ own.or configured ≠ some 0

theorem inForce_timeoutOr (own configured : Option Nat) {default : Nat} (h : 0 < default) :
    InForce own configured default
      (Dispatch.timeoutOr default (Run.timeoutOr configured own)) := by
  have nonzero : default ≠ 0 := by omega
  rcases own with _ | _ | n
  · rcases configured with _ | _ | m
    · exact ⟨rfl, by simp [Dispatch.timeoutOr, Run.timeoutOr]⟩
    · exact ⟨rfl, by simp [Dispatch.timeoutOr, Run.timeoutOr, nonzero]⟩
    · exact ⟨rfl, by simp [Dispatch.timeoutOr, Run.timeoutOr]⟩
  · rcases configured with _ | _ | m
    · exact ⟨rfl, by simp [Dispatch.timeoutOr, Run.timeoutOr, nonzero]⟩
    · exact ⟨rfl, by simp [Dispatch.timeoutOr, Run.timeoutOr, nonzero]⟩
    · exact ⟨rfl, by simp [Dispatch.timeoutOr, Run.timeoutOr]⟩
  · exact ⟨rfl, by simp [Dispatch.timeoutOr, Run.timeoutOr]⟩

/-- A request as it is sent for one of a file: over the wire each timeout is the one in force. -/
structure SentFor (config : RunConfig) (r q : Request) (insecure : Bool) : Prop where
  flag : insecure = config.insecure
  connect : InForce r.connectionTimeout config.connectionTimeout 30000
    (Dispatch.wireRequest q insecure).connectTimeout
  read : InForce r.timeout config.timeout 60000 (Dispatch.wireRequest q insecure).readTimeout

theorem Resolution.request_timeouts (src : Sources) (store : Store) (vars : List Variable)
    (r : Request) : Gives (request src store vars r) fun q =>
      q.timeout = r.timeout ∧ q.connectionTimeout = r.connectionTimeout :=
  (Gives.anything _).bind fun _ _ => (Gives.anything _).bind fun _ _ =>
    (Gives.anything _).bind fun _ _ => (Gives.anything _).bind fun _ _ => .pure ⟨rfl, rfl⟩

variable {σ : Type}

namespace Run

theorem plan_sentFor {src : Sources} {store : Store} {vars : List Variable} {r resolved : Request}
    {next : Nat} (h : (plan src store vars r next).1 = .send resolved) (config : RunConfig) :
    SentFor config r (withTimeouts config resolved) config.insecure := by
  have gives := Resolution.request_timeouts src store vars r ⟨next, []⟩
  unfold plan at h
  cases refused : refusal? store r with
  | some reason =>
    rw [refused] at h
    cases h
  | none =>
    rw [refused] at h
    generalize runFrom (Resolution.request src store vars r) ⟨next, []⟩ = done at h gives
    obtain ⟨(_ | _) | _, p⟩ := done
    · cases h
    · cases h
    · cases h
      obtain ⟨timeout, connectionTimeout⟩ := gives _ p rfl
      refine ⟨rfl, ?_, ?_⟩
      · rw [← connectionTimeout]
        exact inForce_timeoutOr _ _ (by decide)
      · rw [← timeout]
        exact inForce_timeoutOr _ _ (by decide)

/-- What is sent at a request is sent for it, before its event. -/
theorem pass_eachSend (host : Host σ) (config : RunConfig) (vars : List Variable) (total : Nat)
    (run : FileRun) (index : Nat) (r : Request) (s : Session σ) :
    ∃ hs, (runFrom (pass host config vars total run index r) s).2.happenings = s.happenings ++ hs ∧
      Happening.EachSend (fun i q insecure => i = 0 ∧ SentFor config r q insecure) hs := by
  rw [runFrom_pass]
  have sentFor {resolved : Request}
      (planned : (plan host.sources run.store vars r s.next).1 = .send resolved) :=
    plan_sentFor planned
  generalize plan host.sources run.store vars r s.next = planned at sentFor
  have before (ns : List Note) : Happening.Quiet (waits config index ++ ns.map .note) :=
    (quiet_waits config index).append (Happening.quiet_notes ns)
  obtain ⟨reason | resolved | _, next, ns⟩ := planned
  · let noted := waits config index ++ ns.map .note ++ [skipNote index r reason]
    have quiet : Happening.Quiet noted := (before ns).append (quiet_note _)
    refine ⟨noted ++ [.event (.skipped index total r reason)], ?_, ?_⟩
    · simp [Session.shown, Session.add, Session.drawn, noted]
    · exact quiet.eachSend.append (Happening.eachSend_event _)
  · let q := withTimeouts config resolved
    let reply := (host.send q config.insecure s.world).1
    let e := Event.answered index total q (verdict q reply.outcome)
    let paused := waits config index ++ ns.map .note ++ pauses resolved.preDelay
    let noted := reply.remarks.map Remark.happening ++
      (pauses resolved.postDelay ++ [finishNote q e (verdict q reply.outcome)])
    have still : Happening.Quiet paused := (before ns).append (quiet_pauses _)
    have quiet : Happening.Quiet noted :=
      (Happening.quiet_remarks _).append ((quiet_pauses _).append (quiet_note _))
    refine ⟨paused ++ ([.send q config.insecure] ++ (noted ++ [.event e])), ?_, ?_⟩
    · simp [Session.shown, Session.exchange, Session.add, Session.drawn, q, reply, e, paused, noted]
    · refine still.eachSend.append ?_
      rw [still.events]
      refine (Happening.eachSend_send ⟨rfl, sentFor rfl config⟩).append ?_
      exact quiet.eachSend.append (Happening.eachSend_event e)
  · exact ⟨_, rfl, (before ns).eachSend⟩

theorem requestsFrom_eachSend (host : Host σ) (config : RunConfig) (vars : List Variable)
    (total : Nat) (events : Option Nat) (run : FileRun) (index : Nat) (rs : List Request)
    (s : Session σ) :
    ∃ hs, (runFrom (requestsFrom host config vars total events run index rs) s).2.happenings =
        s.happenings ++ hs ∧
      Happening.EachSend
        (fun i q insecure => ∃ r, rs[i]? = some r ∧ SentFor config r q insecure) hs := by
  induction rs generalizing events run index s with
  | nil =>
    rw [runFrom_requestsFrom_nil]
    exact ⟨[], (List.append_nil _).symm, Happening.Quiet.eachSend (Happening.quiet_notes [])⟩
  | cons r rest ih =>
    obtain ⟨first, happened, sent⟩ := pass_eachSend host config vars total run index r s
    have sentFirst : Happening.EachSend (fun i q insecure =>
        ∃ r', (r :: rest)[i]? = some r' ∧ SentFor config r' q insecure) first := by
      refine sent.mono ?_
      rintro i q insecure ⟨rfl, sentFor⟩
      exact ⟨r, rfl, sentFor⟩
    rw [runFrom_requestsFrom_cons]
    split
    · exact ⟨[], (List.append_nil _).symm, Happening.Quiet.eachSend (Happening.quiet_notes [])⟩
    split
    · exact ⟨_, rfl, (quiet_note _).eachSend⟩
    split
    · next run' s₁ passed =>
      rw [passed] at happened
      obtain ⟨e, done, -⟩ := passed_of_pass passed
      obtain ⟨first', happened', reported, -⟩ := done.trace
      obtain rfl : first' = first := List.append_cancel_left (happened'.symm.trans happened)
      obtain ⟨later, happenedLater, sentLater⟩ := ih (events.map (· - 1)) run' (index + 1) s₁
      refine ⟨first' ++ later, ?_, sentFirst.append ?_⟩
      · rw [happenedLater, happened, List.append_assoc]
      · refine sentLater.mono ?_
        rintro i q insecure ⟨r', hr, sentFor⟩
        refine ⟨r', ?_, sentFor⟩
        rw [reported, List.length_singleton, Nat.add_comm]
        exact hr
    · next passed =>
      rw [passed] at happened
      exact ⟨first, happened, sentFirst⟩

/-- Whatever a run sends, it sends for the request that is due, and with the timeouts that are in
force for it. -/
theorem requests_timeouts (host : Host σ) (config : RunConfig) (vars : List Variable)
    (events : Option Nat) (filename : String) (rs : List Request) (s : Session σ) :
    ∃ hs, (runFrom (requests host config vars events filename rs) s).2.happenings =
        s.happenings ++ hs ∧
      ∀ earlier q insecure later, hs = earlier ++ .send q insecure :: later →
        ∃ r, rs[(Happening.events earlier).length]? = some r ∧ SentFor config r q insecure :=
  requestsFrom_eachSend host config vars rs.length events (.start filename) 0 rs s

theorem requests_timeouts_configured :
    let host := (Script.ofStatuses [200]).host fun _ => true
    let config := { RunConfig.default with timeout := some 700 }
    let r := { Request.get "a" none with timeout := some 0, connectionTimeout := some 5 }
    ∃ hs, (runFrom (requests host config [] none "a.http" [r]) .fresh).2.happenings =
        Session.fresh.happenings ++ hs ∧
      ∃ earlier q later, hs = earlier ++ .send q false :: later ∧
        SentFor config r q false ∧
        (Dispatch.wireRequest q false).connectTimeout = 5 ∧
        (Dispatch.wireRequest q false).readTimeout = 700 := by
  intro host config r
  obtain ⟨hs, happened, sent⟩ :=
    requests_timeouts host config [] none "a.http" [r] Session.fresh
  have first : (runFrom (requests host config [] none "a.http" [r]) .fresh).2.happenings.head? =
      some (.send { r with timeout := some 700 } false) := by decide +kernel
  rw [happened] at first
  obtain ⟨later, split⟩ := List.head?_eq_some_iff.1 first
  obtain ⟨r', due, sentFor⟩ := sent [] _ false later split
  obtain rfl : r = r' := Option.some.inj due
  exact ⟨hs, happened, [], _, later, split, sentFor, rfl, rfl⟩

/-- A read timeout of zero is not the one that a request is sent with, although it sets it. -/
theorem zero_timeout_passed_over :
    ¬ ∀ (host : Host Dialogue) (config : RunConfig) (r : Request) (earlier : List Happening)
      (q : Request) (insecure : Bool) (later : List Happening),
      (runFrom (requests host config [] none "a.http" [r]) .fresh).2.happenings =
          earlier ++ .send q insecure :: later →
        (Dispatch.wireRequest q insecure).readTimeout =
          (r.timeout.or config.timeout).getD 60000 := by
  intro claimed
  let host := (Script.ofStatuses [200]).host fun _ => true
  let r := { Request.get "a" none with timeout := some 0 }
  have first : (runFrom (requests host .default [] none "a.http" [r]) .fresh).2.happenings.head? =
      some (.send { r with timeout := none } false) := by decide +kernel
  obtain ⟨later, split⟩ := List.head?_eq_some_iff.1 first
  have zero := claimed host .default r [] _ false later split
  cases zero

end Run

end DotHttp
