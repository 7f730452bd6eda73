import Rdp.Bin.Mstsc.Impl
import Rdp.Core.Global.Negotiated
import Rdp.Core.Client.Impl

/-!
This module contains the receive loop of the client program: which errors end it.
-/

namespace Rdp.Mstsc.Thread

open Prog

/--
The only errors that are looked at.
-/
def IsRdpError (e : Error) : Prop := ∃ inner, e = .rdpError inner

def On (turn : Turn σ) : Prop := turn.ready = true ∧ turn.sync = true

section Loop

variable {σ : Type} (read : Prog Error σ Unit) (turns : Nat → Turn σ) (client : σ)

def clientAt (k : Nat) : σ :=
  match k with
  | 0 => client
  | k + 1 => finalState (read.run ((turns k).others (clientAt k)))

def result (k : Nat) : Option (Fault Error) :=
  outcome (read.run ((turns k).others (clientAt read turns client k)))

/--
The first error is in turn `k`: the loop is entered again and again before, and every read works.
-/
structure FailsAt (k : Nat) (e : Error) : Prop where
  before : ∀ j < k, On (turns j) ∧ result read turns client j = none
  on : On (turns k)
  result : result read turns client k = some (.error e)

/--
No call of `read` comes behind one that failed, and the loop ends when all of the calls fail from
some point on.
-/
structure EndsOnError : Prop where
  stops : ∀ fuel,
    ∀ r ∈ (finalState ((launchRdpThread read turns fuel).run ⟨client, []⟩)).reads.dropLast, r = none
  terminates : (∀ k, result read turns client k = none ∨
      ∃ e, result read turns client k = some (.error e)) →
    (∃ n, ∀ k ≥ n, ∃ e, result read turns client k = some (.error e)) →
    ∃ fuel, outcome ((launchRdpThread read turns fuel).run ⟨client, []⟩) ≠ some .diverge

end Loop

section Turns

variable {σ : Type} {read : Prog Error σ Unit} {turns : Nat → Turn σ} {client : σ} {k : Nat}
  {reads : List (Option (Fault Error))}

theorem receiveLoop_of_not_on (h : ¬ On (turns k)) (fuel : Nat) (t : Thread σ) :
    (receiveLoop read turns (fuel + 1) k).run t = .ok () t := by
  have hcond : ((turns k).ready && (turns k).sync) = false := by
    rwa [On, ← Bool.and_eq_true, Bool.not_eq_true] at h
  rw [receiveLoop, hcond]
  rfl

theorem receiveLoop_of_on (h : On (turns k)) (fuel : Nat) :
    receiveLoop read turns (fuel + 1) k = (do
      if ← receive read (turns k) then return () else receiveLoop read turns fuel (k + 1)) := by
  rw [receiveLoop, h.1, h.2]
  rfl

theorem run_receive :
    (receive read (turns k)).run ⟨clientAt read turns client k, reads⟩ =
      let t : Thread σ := ⟨clientAt read turns client (k + 1), reads ++ [result read turns client k]⟩
      match result read turns client k with
      | none => .ok false t
      | some (.error (.rdpError _)) => .ok true t
      | some (.error _) => .ok false t
      | some e => .error e t := rfl

theorem receiveLoop_of_none (hon : On (turns k)) (h : result read turns client k = none)
    (fuel : Nat) :
    (receiveLoop read turns (fuel + 1) k).run ⟨clientAt read turns client k, reads⟩ =
      (receiveLoop read turns fuel (k + 1)).run
        ⟨clientAt read turns client (k + 1), reads ++ [none]⟩ := by
  rw [receiveLoop_of_on hon, EStateM.run_bind, run_receive, h]
  rfl

theorem receiveLoop_of_rdpError {e : Error} (hon : On (turns k))
    (h : result read turns client k = some (.error e)) (he : IsRdpError e) (fuel : Nat) :
    (receiveLoop read turns (fuel + 1) k).run ⟨clientAt read turns client k, reads⟩ =
      .ok () ⟨clientAt read turns client (k + 1), reads ++ [some (.error e)]⟩ := by
  obtain ⟨inner, rfl⟩ := he
  rw [receiveLoop_of_on hon, EStateM.run_bind, run_receive, h]
  rfl

theorem receiveLoop_of_ne {e : Error} (hon : On (turns k))
    (h : result read turns client k = some (.error e)) (he : ¬ IsRdpError e) (fuel : Nat) :
    (receiveLoop read turns (fuel + 1) k).run ⟨clientAt read turns client k, reads⟩ =
      (receiveLoop read turns fuel (k + 1)).run
        ⟨clientAt read turns client (k + 1), reads ++ [some (.error e)]⟩ := by
  -- An error that is not looked at is like no error.
  rw [receiveLoop_of_on hon, EStateM.run_bind, run_receive, h]
  cases e with
  | rdpError inner => exact absurd ⟨inner, rfl⟩ he
  | _ => rfl

theorem receiveLoop_of_abort {e : Fault Error} (hon : On (turns k))
    (h : result read turns client k = some e) (he : ¬ e.IsError) (fuel : Nat) :
    (receiveLoop read turns (fuel + 1) k).run ⟨clientAt read turns client k, reads⟩ =
      .error e ⟨clientAt read turns client (k + 1), reads ++ [some e]⟩ := by
  rw [receiveLoop_of_on hon, EStateM.run_bind, run_receive, h]
  cases e with
  | error e => exact absurd (Fault.isError_error e) he
  | panic msg => rfl
  | diverge => rfl

theorem receiveLoop_add (k n : Nat) (reads : List (Option (Fault Error)))
    (h : ∀ j, k ≤ j → j < k + n → On (turns j) ∧ result read turns client j = none) (fuel : Nat) :
    (receiveLoop read turns (fuel + n) k).run ⟨clientAt read turns client k, reads⟩ =
      (receiveLoop read turns fuel (k + n)).run
        ⟨clientAt read turns client (k + n), reads ++ List.replicate n none⟩ := by
  induction n generalizing k reads with
  | zero => rw [Nat.add_zero, List.replicate_zero, List.append_nil, Nat.add_zero]
  | succ n ih =>
    obtain ⟨hon, hresult⟩ := h k (Nat.le_refl k) (by omega)
    rw [← Nat.add_assoc, receiveLoop_of_none hon hresult,
      ih (k + 1) _ fun j hj hlt => h j (by omega) (by omega), List.append_assoc,
      List.singleton_append, ← List.replicate_succ, Nat.add_right_comm, ← Nat.add_assoc]

theorem reads_receiveLoop_one (hon : On (turns k)) :
    (finalState ((receiveLoop read turns 1 k).run ⟨clientAt read turns client k, reads⟩)).reads =
      reads ++ [result read turns client k] := by
  cases h : result read turns client k with
  | none =>
    rw [receiveLoop_of_none hon h]
    rfl
  | some fault =>
    cases fault with
    | error e =>
      by_cases he : IsRdpError e
      . rw [receiveLoop_of_rdpError hon h he]
        rfl
      . rw [receiveLoop_of_ne hon h he]
        rfl
    | panic msg =>
      rw [receiveLoop_of_abort hon h (Fault.not_isError_panic msg)]
      rfl
    | diverge =>
      rw [receiveLoop_of_abort hon h Fault.not_isError_diverge]
      rfl

end Turns

section Ends

variable {σ : Type} {read : Prog Error σ Unit} {turns : Nat → Turn σ} {client : σ}

theorem before_succ {k : Nat} (hbefore : ∀ j < k, On (turns j) ∧ result read turns client j = none)
    (hon : On (turns k)) (hresult : result read turns client k = none) :
    ∀ j < k + 1, On (turns j) ∧ result read turns client j = none := by
  intro j hj
  rcases Nat.lt_succ_iff_lt_or_eq.mp hj with hlt | rfl
  . exact hbefore j hlt
  . exact ⟨hon, hresult⟩

theorem stops_of_failsAt
    (h : ∀ k e, FailsAt read turns client k e → IsRdpError e ∨ ¬ On (turns (k + 1))) (fuel : Nat)
    {k : Nat} {reads : List (Option (Fault Error))}
    (hbefore : ∀ j < k, On (turns j) ∧ result read turns client j = none)
    (hreads : ∀ r ∈ reads, r = none) :
    ∀ r ∈ (finalState ((receiveLoop read turns fuel k).run
      ⟨clientAt read turns client k, reads⟩)).reads.dropLast, r = none := by
  -- A loop that is not entered again after the first error has only reads that worked before it.
  have hlast (r : Option (Fault Error)) : ∀ r' ∈ (reads ++ [r]).dropLast, r' = none := by
    rw [List.dropLast_concat]
    exact hreads
  induction fuel generalizing k reads with
  | zero => exact fun r hr => hreads r (List.mem_of_mem_dropLast hr)
  | succ fuel ih =>
    by_cases hon : On (turns k)
    . cases hresult : result read turns client k with
      | none =>
        rw [receiveLoop_of_none hon hresult]
        have hall : ∀ r ∈ reads ++ [none], r = none := by
          intro r hr
          rcases List.mem_append.mp hr with hr | hr
          . exact hreads r hr
          . exact List.mem_singleton.mp hr
        refine ih (before_succ hbefore hon hresult) hall fun r => ?_
        rw [List.dropLast_concat]
        exact hall
      | some fault =>
        cases fault with
        | error e =>
          by_cases he : IsRdpError e
          . rw [receiveLoop_of_rdpError hon hresult he]
            exact hlast _
          . have hnext := (h k e ⟨hbefore, hon, hresult⟩).resolve_left he
            rw [receiveLoop_of_ne hon hresult he]
            -- the turn behind the error is not entered, with or without fuel for it
            cases fuel with
            | zero => exact hlast _
            | succ fuel =>
              rw [receiveLoop_of_not_on hnext]
              exact hlast _
        | panic msg =>
          rw [receiveLoop_of_abort hon hresult (Fault.not_isError_panic msg)]
          exact hlast _
        | diverge =>
          rw [receiveLoop_of_abort hon hresult Fault.not_isError_diverge]
          exact hlast _
    . rw [receiveLoop_of_not_on hon]
      exact fun r hr => hreads r (List.mem_of_mem_dropLast hr)

theorem ends_of_run {fuel k : Nat} {t t' : Thread σ}
    (h : (receiveLoop read turns fuel k).run t = .ok () t') :
    ∃ fuel, outcome ((receiveLoop read turns fuel k).run t) ≠ some .diverge := by
  refine ⟨fuel, ?_⟩
  rw [h]
  simp [outcome]

theorem ends_of_failsAt
    (h : ∀ k e, FailsAt read turns client k e → IsRdpError e ∨ ¬ On (turns (k + 1))) {k : Nat}
    {e : Error} (hfails : FailsAt read turns client k e) (reads : List (Option (Fault Error))) :
    ∃ fuel, outcome ((receiveLoop read turns fuel k).run
      ⟨clientAt read turns client k, reads⟩) ≠ some .diverge := by
  by_cases he : IsRdpError e
  . exact ends_of_run (receiveLoop_of_rdpError hfails.on hfails.result he 0)
  . have hnext := (h k e hfails).resolve_left he
    have hfirst := @receiveLoop_of_ne _ _ _ _ _ reads _ hfails.on hfails.result he 1
    rw [receiveLoop_of_not_on hnext] at hfirst
    exact ends_of_run hfirst

theorem terminates_of_failsAt
    (h : ∀ k e, FailsAt read turns client k e → IsRdpError e ∨ ¬ On (turns (k + 1)))
    (hresults : ∀ k, result read turns client k = none ∨
      ∃ e, result read turns client k = some (.error e)) {n : Nat}
    (hfails : ∀ k ≥ n, ∃ e, result read turns client k = some (.error e)) (m : Nat) {k : Nat}
    {reads : List (Option (Fault Error))} (hn : n ≤ k + m)
    (hbefore : ∀ j < k, On (turns j) ∧ result read turns client j = none) :
    ∃ fuel, outcome ((receiveLoop read turns fuel k).run
      ⟨clientAt read turns client k, reads⟩) ≠ some .diverge := by
  -- The loop comes to an end before it has left all of the turns whose reads may work.
  induction m generalizing k reads with
  | zero =>
    by_cases hon : On (turns k)
    . obtain ⟨e, hresult⟩ := hfails k hn
      exact ends_of_failsAt h ⟨hbefore, hon, hresult⟩ reads
    . exact ends_of_run (receiveLoop_of_not_on hon 0 _)
  | succ m ih =>
    by_cases hon : On (turns k)
    . rcases hresults k with hresult | ⟨e, hresult⟩
      . obtain ⟨fuel, hfuel⟩ := @ih (k + 1) (reads ++ [none]) (by omega)
          (before_succ hbefore hon hresult)
        exact ⟨fuel + 1, by rwa [receiveLoop_of_none hon hresult]⟩
      . exact ends_of_failsAt h ⟨hbefore, hon, hresult⟩ reads
    . exact ends_of_run (receiveLoop_of_not_on hon 0 _)

end Ends

/--
The thread ends with the first error exactly when that error is an `RdpError`, or when the socket is
not readable or the flag is cleared in the turn behind it.
-/
theorem endsOnError_iff {σ : Type} (read : Prog Error σ Unit) (turns : Nat → Turn σ) (client : σ) :
    EndsOnError read turns client ↔
      ∀ k e, FailsAt read turns client k e → IsRdpError e ∨ ¬ On (turns (k + 1)) := by
  constructor
  . intro h k e hfails
    by_cases he : IsRdpError e
    . exact .inl he
    refine .inr fun hon => ?_
    -- the read behind the error is recorded, whatever it comes to
    have hreads := h.stops (2 + k)
    have hstart := receiveLoop_add 0 k [] (fun j _ hj => hfails.before j (by omega)) 2
    rw [Nat.zero_add] at hstart
    change ∀ r ∈ (finalState ((receiveLoop read turns (2 + k) 0).run
      ⟨clientAt read turns client 0, []⟩)).reads.dropLast, r = none at hreads
    rw [hstart,
      receiveLoop_of_ne hfails.on hfails.result he, reads_receiveLoop_one hon,
      List.dropLast_concat] at hreads
    have hnone := hreads (some (.error e)) (by simp)
    cases hnone
  . intro h
    constructor
    . intro fuel
      exact stops_of_failsAt h fuel (k := 0) (by simp) (by simp)
    . rintro hresults ⟨n, hfails⟩
      exact terminates_of_failsAt h hresults hfails n (k := 0) (by omega) (by simp)

section Diverges

variable {σ : Type} {read : Prog Error σ Unit} {turns : Nat → Turn σ} {client : σ}

theorem diverges_of_error {e : Error} (he : ¬ IsRdpError e) (hon : ∀ k, On (turns k))
    (hresult : ∀ k, result read turns client k = some (.error e)) (fuel k : Nat)
    (reads : List (Option (Fault Error))) :
    outcome ((receiveLoop read turns fuel k).run ⟨clientAt read turns client k, reads⟩) =
      some .diverge := by
  induction fuel generalizing k reads with
  | zero => rfl
  | succ fuel ih =>
    rw [receiveLoop_of_ne (hon k) (hresult k) he]
    exact ih (k + 1) _

end Diverges

/--
The peer has closed the connection, and everything it sent was read.
-/
def Closed (s : Global.Session) : Prop := s.mcs.link.stream.socket.reads = []

theorem read_of_closed {s : Global.Session} (h : Closed s) :
    RdpClient.read.run s = .error (.error (.io .unexpectedEof)) s := by
  obtain ⟨client, mcs, written, events⟩ := s
  obtain ⟨link, selectedProtocol, serverData, userId, channelIds, place⟩ := mcs
  obtain ⟨stream, sent⟩ := link
  cases stream with
  | raw socket =>
    obtain ⟨reads, writes, received⟩ := socket
    cases h
    rfl
  | ssl tls =>
    obtain ⟨socket, certificate⟩ := tls
    obtain ⟨reads, writes, received⟩ := socket
    cases h
    rfl

section Dead

variable {turns : Nat → Turn Global.Session} {s : Global.Session}

theorem closed_clientAt (h : Closed s) (hothers : ∀ k t, Closed t → Closed ((turns k).others t))
    (k : Nat) : Closed (clientAt RdpClient.read turns s k) := by
  induction k with
  | zero => exact h
  | succ k ih =>
    rw [clientAt, read_of_closed (hothers k _ ih)]
    exact hothers k _ ih

theorem result_of_closed (turns : Nat → Turn Global.Session) (h : Closed s)
    (hothers : ∀ k t, Closed t → Closed ((turns k).others t)) (k : Nat) :
    result RdpClient.read turns s k = some (.error (.io .unexpectedEof)) := by
  rw [result, read_of_closed (hothers k _ (closed_clientAt h hothers k))]
  rfl

theorem diverges_of_closed (h : Closed s) (hon : ∀ k, On (turns k))
    (hothers : ∀ k t, Closed t → Closed ((turns k).others t)) (fuel : Nat) :
    outcome ((launchRdpThread RdpClient.read turns fuel).run ⟨s, []⟩) = some .diverge := by
  have he : ¬ IsRdpError (.io .unexpectedEof) := by
    rintro ⟨inner, h⟩
    cases h
  exact diverges_of_error he hon (result_of_closed turns h hothers) fuel 0 []

end Dead

/--
The connection is closed before the first read.
-/
theorem not_endsOnError :
    ¬ EndsOnError RdpClient.read (fun _ => ⟨true, true, id⟩) Global.Client.Handshake.start := by
  intro h
  have hclosed : Closed Global.Client.Handshake.start := rfl
  have hresult := result_of_closed (fun _ => ⟨true, true, id⟩) hclosed fun _ _ => id
  obtain ⟨fuel, hfuel⟩ := h.terminates (fun k => .inr ⟨_, hresult k⟩) ⟨0, fun k _ => ⟨_, hresult k⟩⟩
  exact hfuel (diverges_of_closed hclosed (fun _ => ⟨rfl, rfl⟩) (fun _ _ => id) fuel)

end Rdp.Mstsc.Thread
