import HobbitSynchrony.Traffic

/-! # Client IDs

IDs come from an 8-bit counter that `acceptClients` never compares with the
IDs in use. The `k`-th accepted client (from 1) gets the ID `k % 256`.

* `FreshID`: the accepts that get an ID that is neither 0 nor in use;
* `UniqueIDs`: what a step should leave behind;
* `freshID_iff_uniqueIDs`: the runs whose accepts are all fresh are the runs
  whose steps all leave distinct, nonzero IDs and remove the right handler.
-/

namespace HobbitSynchrony

open Transition

/-- The step does not accept a client whose number is a multiple of 256, or is
that of a registered client up to a multiple of 256. -/
def FreshID (s : Net) (a : Action) (_ : Net) : Prop :=
  match a with
  | .accept _ _ _ =>
    (s.accepts + 1) % 256 ≠ 0 ∧ ∀ h ∈ s.clients, (h.socket + 1) % 256 ≠ (s.accepts + 1) % 256
  | _ => True

/-- After the step the registered handlers have distinct IDs other than 0; a
removal took out the handler of its own client and no other. -/
structure UniqueIDs (s : Net) (a : Action) (s' : Net) : Prop where
  distinct : s'.DistinctIDs
  nonzero : ∀ h ∈ s'.clients, h.clientID ≠ 0
  removal : ∀ n, a = .remove n →
    (s.conn n).clientHandler ∈ s.clients ∧ s'.clients = s.clients.filter fun h => h.socket != n

/-! ## The IDs of the 8-bit counter -/

theorem ofNat_eq_ofNat_iff (a b : ℕ) : UInt8.ofNat a = UInt8.ofNat b ↔ a % 256 = b % 256 := by
  rw [← UInt8.toNat_inj, UInt8.toNat_ofNat', UInt8.toNat_ofNat']

theorem Net.WellFormed.clientID_of_mem {s : Net} (hs : s.WellFormed) {h : ClientHandler}
    (hh : h ∈ s.clients) : h.clientID = UInt8.ofNat (h.socket + 1) := by
  rcases hs.registered h hh with ⟨hlt, hconn⟩
  have hid := hs.clientID h.socket hlt
  rwa [hconn] at hid

/-- Only `accept` lets the list of registered handlers grow. -/
theorem clients_sublist {s s' : Net} {a : Action} (h : Step s a s')
    (ha : ∀ ipAddress sinPort prev, a ≠ .accept ipAddress sinPort prev) :
    s'.clients.Sublist s.clients := by
  cases h with
  | accept ipAddress sinPort prev hpc hprev => exact absurd rfl (ha ipAddress sinPort prev)
  | remove n hpc => exact List.filter_sublist
  | acceptNotify _ hpc => rw [Net.clients_notifyClients]
  | exitNotify n hpc => rw [Net.clients_modify, Net.clients_notifyClients]
  | broadcast n msg hpc => rw [Net.clients_modify, Net.clients_broadcastMessage]
  | _ => exact List.Sublist.refl _

/-! ## One step -/

/-- The states in which IDs have been unique so far. -/
structure IDsUnique (s : Net) : Prop where
  wellFormed : s.WellFormed
  registered : s.Registered
  distinct : s.DistinctIDs
  nonzero : ∀ h ∈ s.clients, h.clientID ≠ 0

theorem idsUnique_start : IDsUnique Net.start where
  wellFormed := Net.wellFormed_start
  registered := Net.registered_start
  distinct := List.nodup_nil
  nonzero := fun _ hh => absurd hh List.not_mem_nil

/-- An accept keeps the IDs unique exactly when it is fresh. -/
theorem accept_unique_iff {s : Net} (hs : IDsUnique s) (ipAddress : IpText) (sinPort : UInt16)
    (prev : Option ℕ) (s' : Net) :
    ((s.accept ipAddress sinPort prev).DistinctIDs ∧
      ∀ h ∈ (s.accept ipAddress sinPort prev).clients, h.clientID ≠ 0) ↔
      FreshID s (.accept ipAddress sinPort prev) s' := by
  have hnext : s.nextClientID = UInt8.ofNat (s.accepts + 1) := hs.wellFormed.nextClientID
  -- the counter and the IDs are the numbers of the accepts, modulo 256
  have hzero : s.nextClientID = 0 ↔ (s.accepts + 1) % 256 = 0 := by
    rw [hnext]
    exact ofNat_eq_ofNat_iff (s.accepts + 1) 0
  have hused : ∀ h ∈ s.clients,
      h.clientID = s.nextClientID ↔ (h.socket + 1) % 256 = (s.accepts + 1) % 256 := by
    intro h hh
    rw [hnext, hs.wellFormed.clientID_of_mem hh]
    exact ofNat_eq_ofNat_iff _ _
  -- the old IDs are distinct, so only the new one can clash
  have hdistinct : (s.accept ipAddress sinPort prev).DistinctIDs ↔
      ∀ h ∈ s.clients, h.clientID ≠ s.nextClientID := by
    rw [Net.DistinctIDs, Net.accept, List.map_append, List.nodup_append]
    constructor
    · rintro ⟨-, -, hnew⟩ h hh
      exact hnew _ (List.mem_map_of_mem hh) _ (List.mem_singleton.2 rfl)
    · intro hnew
      refine ⟨hs.distinct, List.nodup_singleton _, ?_⟩
      intro id hid id' hid' heq
      rcases List.mem_map.1 hid with ⟨h, hh, rfl⟩
      obtain rfl : id' = s.nextClientID := by simpa using hid'
      exact hnew h hh heq
  constructor
  · rintro ⟨hd, hnz⟩
    constructor
    · intro hk
      exact hnz _ (List.mem_append_right _ (List.mem_singleton.2 rfl)) (hzero.2 hk)
    · intro h hh hk
      exact hdistinct.1 hd h hh ((hused h hh).2 hk)
  · rintro ⟨hk, hfresh⟩
    refine ⟨hdistinct.2 fun h hh heq => hfresh h hh ((hused h hh).1 heq), ?_⟩
    intro h hh
    rcases List.mem_append.1 hh with hh | hh
    · exact hs.nonzero h hh
    · obtain rfl := List.mem_singleton.1 hh
      exact fun heq => hk (hzero.1 heq)

/-- As long as the IDs have been unique, a step meets the condition exactly
when it leaves unique IDs. -/
theorem freshID_step_iff {s s' : Net} {a : Action} (hs : IDsUnique s) (h : Step s a s') :
    FreshID s a s' ↔ UniqueIDs s a s' := by
  by_cases ha : ∃ ipAddress sinPort prev, a = .accept ipAddress sinPort prev
  · rcases ha with ⟨ipAddress, sinPort, prev, rfl⟩
    cases h with
    | accept _ _ _ hpc hprev =>
        rw [← accept_unique_iff hs ipAddress sinPort prev]
        constructor
        · rintro ⟨hd, hnz⟩
          exact ⟨hd, hnz, fun n hn => by cases hn⟩
        · intro hu
          exact ⟨hu.distinct, hu.nonzero⟩
  · -- no new handler: the condition holds, and so does uniqueness
    have hsub := clients_sublist h fun ip port prev heq => ha ⟨ip, port, prev, heq⟩
    have hfresh : FreshID s a s' := by
      unfold FreshID
      split
      · exact absurd ⟨_, _, _, rfl⟩ ha
      · trivial
    refine ⟨fun _ => ?_, fun _ => hfresh⟩
    constructor
    case distinct => exact hs.distinct.sublist (hsub.map _)
    case nonzero => exact fun g hg => hs.nonzero g (hsub.subset hg)
    case removal =>
      rintro n rfl
      cases h with
      | remove _ hpc =>
          exact ⟨hs.registered.handler n (by rw [hpc]; trivial),
            Net.clients_remove hs.wellFormed hs.registered hs.distinct hpc⟩

theorem idsUnique_step {s s' : Net} {a : Action} (hs : IDsUnique s) (h : Step s a s')
    (hfresh : FreshID s a s') : IDsUnique s' where
  wellFormed := hs.wellFormed.step h
  registered := hs.registered.step hs.wellFormed hs.distinct h
  distinct := ((freshID_step_iff hs h).1 hfresh).distinct
  nonzero := ((freshID_step_iff hs h).1 hfresh).nonzero

/-! ## Whole runs -/

/-- The first 255 accepts are fresh. -/
theorem freshID_of_lt {s s' : Net} {a : Action} (hwf : s.WellFormed) (h : Step s a s')
    (hlt : s'.accepts < 256) : FreshID s a s' := by
  cases h with
  | accept ipAddress sinPort prev hpc hprev =>
      have hlt' : s.accepts + 1 < 256 := hlt
      refine ⟨by omega, ?_⟩
      intro g hg
      have := (hwf.registered g hg).1
      omega
  | _ => trivial

/-- The IDs are unique all along a run exactly when every accept is fresh. -/
theorem freshID_iff_uniqueIDs (as : List Action) :
    EveryStep Step Net.start as FreshID ↔ EveryStep Step Net.start as UniqueIDs :=
  everyStep_iff IDsUnique FreshID UniqueIDs idsUnique_start
    (fun _ _ _ hs h hfresh => idsUnique_step hs h hfresh)
    (fun _ _ _ hs h => freshID_step_iff hs h)

/-! ## A run that uses up the IDs -/

/-- Setting up one client, from its accept to the start of its thread. -/
theorem run_join (s : Net) (hpc : s.acceptor = .accepting) :
    ∃ s', Run Step s [.accept localhost 0xF0D2 none, .sendID, .acceptNotify, .spawn] s' ∧
      s'.acceptor = .accepting ∧ s'.accepts = s.accepts + 1 ∧
      s'.clients = s.clients ++ [s.newHandler localhost 0xF0D2] := by
  have hnext : exec Net.next s [.accept localhost 0xF0D2 none, .sendID, .acceptNotify, .spawn] =
      some { (({ ((s.accept localhost 0xF0D2 none).sendID
                    (s.newHandler localhost 0xF0D2)).notifyClients with
                  acceptor := .spawn (s.newHandler localhost 0xF0D2) } : Net).modify s.accepts
                fun c => { c with handler := .reading }) with acceptor := .accepting } := by
    simp only [exec, Net.next, hpc]
    rfl
  refine ⟨_, Net.run_of_next hnext, rfl, ?_, ?_⟩
  · simp [Net.sendID, Net.send, Net.accept]
  · simp [Net.sendID, Net.send, Net.accept]

theorem run_joins (k : ℕ) : ∃ s, Run Step Net.start (joins k) s ∧ s.acceptor = .accepting ∧
    s.accepts = k ∧ ∀ n < k, ∃ h ∈ s.clients, h.socket = n := by
  induction k with
  | zero => exact ⟨_, Run.nil, rfl, rfl, fun n hn => absurd hn (Nat.not_lt_zero n)⟩
  | succ k ih =>
      rcases ih with ⟨s, hrun, hpc, hacc, hall⟩
      rcases run_join s hpc with ⟨s', hjoin, hpc', hacc', hclients⟩
      -- nobody leaves, so the clients that were there are still registered
      refine ⟨s', hrun.append hjoin, hpc', by rw [hacc', hacc], ?_⟩
      intro n hn
      rw [hclients]
      rcases Nat.lt_succ_iff_lt_or_eq.1 hn with hlt | rfl
      · rcases hall n hlt with ⟨h, hh, hsock⟩
        exact ⟨h, List.mem_append_left _ hh, hsock⟩
      · exact ⟨_, List.mem_append_right _ (List.mem_singleton.2 rfl), hacc⟩

/-- With 257 clients that stay, the 256th has the ID 0 and the 257th that of
the first. -/
theorem ids_wrap : ∃ s, Run Step Net.start (joins 257) s ∧ ¬ s.DistinctIDs ∧
    ∃ h ∈ s.clients, h.clientID = 0 := by
  rcases run_joins 257 with ⟨s, hrun, -, -, hall⟩
  have hwf : s.WellFormed := hrun.invariant (fun _ _ _ h hs => hs.step h) Net.wellFormed_start
  rcases hall 0 (by decide) with ⟨h, hh, hsock⟩
  rcases hall 255 (by decide) with ⟨h', hh', hsock'⟩
  rcases hall 256 (by decide) with ⟨h'', hh'', hsock''⟩
  refine ⟨s, hrun, ?_, h', hh', ?_⟩
  · -- the first and the last handler would be one, but their sockets differ
    intro hd
    have hid : h.clientID = h''.clientID := by
      rw [hwf.clientID_of_mem hh, hwf.clientID_of_mem hh'', hsock, hsock'']
      rfl
    have heq := hd.eq hh hh'' hid
    rw [heq, hsock''] at hsock
    exact absurd hsock (by decide)
  · rw [hwf.clientID_of_mem hh', hsock']
    rfl

end HobbitSynchrony
