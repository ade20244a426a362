import HobbitSynchrony.Lib.DeltaLedger
import HobbitSynchrony.MessageStreams

/-! # What all clients have on its way to one

As long as nobody joins or leaves, what a client sends comes to every other one once.
What is on its way to a client from all others, as a sum, grows with what they send,
and falls with what is delivered; the server in between changes nothing.

* `Net.coming`: the sum of what is on its way to a client;
* `coming_modify`, `coming_congr`: what it depends on;
* `ComingStep`, `comingStep`: what a calm step does to it.
-/

namespace HobbitSynchrony

section sums

variable {G : Type} [AddCommGroup G] (φ : BaseMessage UInt8 → List G)

/-- The sum of what is on its way to client `r`, from the first `N` clients. -/
def Net.coming (N r : ℕ) (s : Net) : G :=
  ((s.conn r).inFlight.flatMap fun frame => bodyItems φ frame.body).sum +
    ∑ n ∈ Finset.range N, if n = r then 0 else ((s.conn n).outgoing φ).sum

/-- What a step does to it, and to the client that gets it. -/
inductive ComingStep (N r : ℕ) (s : Net) (a : Action) (s' : Net) : Prop where
  | same (ha : ∀ n body, a ≠ .clientSend n body)
      (hclient : (s'.conn r).client = (s.conn r).client)
      (hsum : s'.coming φ N r = s.coming φ N r)
  | sent (n : ℕ) (body : List UInt8) (ha : a = .clientSend n body)
      (hclient : (s'.conn r).client = (s.conn r).client)
      (hsum : s'.coming φ N r =
        s.coming φ N r + if n = r then 0 else (bodyItems φ body).sum)
  | delivered (frame : Frame) (ha : a = .deliver r)
      (hclient : (s'.conn r).client = (s.conn r).client.receiveBody frame.body)
      (hsum : s.coming φ N r = (bodyItems φ frame.body).sum + s'.coming φ N r)

variable {φ} {N r : ℕ}

theorem coming_congr {s s' : Net} (hflight : (s'.conn r).inFlight = (s.conn r).inFlight)
    (hout : ∀ n, (s'.conn n).outgoing φ = (s.conn n).outgoing φ) :
    s'.coming φ N r = s.coming φ N r := by
  unfold Net.coming
  simp only [hflight, hout]

/-- One connection changes what is on its way from it. -/
theorem coming_modify {s : Net} {m : ℕ} (hm : m < N) {f : Connection → Connection}
    (hflight : (f (s.conn m)).inFlight = (s.conn m).inFlight) :
    (s.modify m f).coming φ N r = s.coming φ N r + if m = r then 0
      else ((f (s.conn m)).outgoing φ).sum - ((s.conn m).outgoing φ).sum := by
  have hr : ((s.modify m f).conn r).inFlight = (s.conn r).inFlight := by
    by_cases hrm : r = m
    · subst hrm
      rw [Net.conn_modify, Function.update_self, hflight]
    · rw [Net.conn_modify, Function.update_of_ne hrm]
  have hother : ∀ n, n ≠ m →
      (if n = r then 0 else (((s.modify m f).conn n).outgoing φ).sum) =
        if n = r then 0 else ((s.conn n).outgoing φ).sum := by
    intro n hn
    rw [Net.conn_modify, Function.update_of_ne hn]
  unfold Net.coming
  rw [hr, DeltaLedger.sum_change (Finset.mem_range.2 hm) hother, ← add_assoc, Net.conn_modify,
    Function.update_self]
  congr 1
  split
  · exact sub_zero 0
  · rfl

theorem comingStep {s s' : Net} {a : Action} (hs : Serving s) (h : Step s a s') (hcalm : a.Calm)
    (hr : Present r s.clients) (hφ : ∀ msg id, φ { msg with senderID := id } = φ msg) :
    ComingStep φ s.accepts r s a s' := by
  have hsame : ∀ {m : ℕ} {f : Connection → Connection},
      (f (s.conn m)).client = (s.conn m).client →
      ((s.modify m f).conn r).client = (s.conn r).client := by
    intro m f hf
    by_cases hrm : r = m
    · subst hrm
      rw [Net.conn_modify, Function.update_self, hf]
    · rw [Net.conn_modify, Function.update_of_ne hrm]
  cases h with
  | clientSend m body hm hbody =>
      refine .sent m body rfl (hsame rfl) ?_
      rw [coming_modify hm rfl]
      congr 2
      unfold Connection.outgoing Connection.submit
      rw [List.flatMap_append, ← List.append_assoc, List.sum_append]
      simp
  | readShort m body rest hpc hbody hmsg =>
      have hm : m < s.accepts := hs.wellFormed.lt_accepts (by rw [hpc]; simp)
      refine .same (by simp) (hsame rfl) ?_
      have hout : (Connection.skip body rest (s.conn m)).outgoing φ = (s.conn m).outgoing φ := by
        unfold Connection.outgoing Connection.skip
        rw [hbody, List.flatMap_cons]
        unfold bodyItems
        rw [hmsg]
        rfl
      rw [coming_modify hm rfl, hout, sub_self, ite_self, add_zero]
  | read m body rest msg hpc hbody hmsg =>
      have hm : m < s.accepts := hs.wellFormed.lt_accepts (by rw [hpc]; simp)
      refine .same (by simp) (hsame rfl) ?_
      have hout : (Connection.take body rest msg s.clients (s.conn m)).outgoing φ =
          (s.conn m).outgoing φ := by
        have hitems : bodyItems φ body = φ msg := by
          unfold bodyItems
          rw [hmsg]
        unfold Connection.outgoing Connection.take Connection.skip
        rw [hbody, hpc, List.flatMap_cons, hitems]
        simp [HandlerPoint.message, Connection.stamp, hφ]
      rw [coming_modify hm rfl, hout, sub_self, ite_self, add_zero]
  | broadcast m msg hpc =>
      have hm : m < s.accepts := hs.wellFormed.lt_accepts (by rw [hpc]; simp)
      refine .same (by simp) (client_broadcast msg _ m r) ?_
      have hother : ∀ n, n ≠ m →
          (if n = r then (0 : G) else (((s.broadcastMessage msg
            (s.conn m).clientHandler.clientID).modify m
              (Connection.relayed msg s.clients)).conn n).outgoing φ |>.sum) =
            if n = r then 0 else ((s.conn n).outgoing φ).sum := by
        intro n hn
        rw [Net.conn_modify, Function.update_of_ne hn, Net.conn_broadcastMessage]
        rfl
      unfold Net.coming
      rw [inFlight_broadcast hs hpc, List.flatMap_append, List.sum_append,
        DeltaLedger.sum_change (Finset.mem_range.2 hm) hother, outgoing_relayed hpc]
      by_cases hmr : m = r
      · subst hmr
        simp
      · -- what the thread had goes to the socket
        have hrelay : bodyItems φ (relayFrame msg s.clients).body = φ msg := by
          rw [relayFrame, bodyItems_serializeMessage]
        rw [if_pos ⟨fun heq => hmr heq.symm, hr⟩, if_neg hmr, if_neg hmr, List.flatMap_cons,
          List.flatMap_nil, List.append_nil, hrelay, List.sum_append]
        abel
  | deliver m frame rest hconn hframe =>
      have hout : ∀ n, ((s.modify m (Connection.receive frame rest)).conn n).outgoing φ =
          (s.conn n).outgoing φ := by
        intro n
        by_cases hnm : n = m
        · subst hnm
          rw [Net.conn_modify, Function.update_self]
          rfl
        · rw [Net.conn_modify, Function.update_of_ne hnm]
      by_cases hrm : r = m
      · subst hrm
        refine .delivered frame rfl ?_ ?_
        · rw [Net.conn_modify, Function.update_self]
          rfl
        · unfold Net.coming
          simp only [hout]
          rw [Net.conn_modify, Function.update_self, hframe, List.flatMap_cons, List.sum_append,
            add_assoc]
          rfl
      · refine .same (by simp) ?_ (coming_congr ?_ hout)
        · rw [Net.conn_modify, Function.update_of_ne hrm]
        · rw [Net.conn_modify, Function.update_of_ne hrm]
  | accept | sendID | acceptNotify | spawn | hangup | remove | exitNotify | lose =>
      exact hcalm.elim

end sums

end HobbitSynchrony
