import HobbitSynchrony.Lib.FixedWidth

/-! # A 32-bit address space

Memory as a map from 32-bit addresses, with reads and writes of stretches of
bytes and of fixed-width values. Address arithmetic wraps, as `uint32_t` does.

`Apart a n b k` says that `n` bytes at `a` and `k` bytes at `b` share no
address; a write leaves every stretch that is apart from it alone.
-/

namespace AddressSpace

universe u v

/-- The contents of every address. -/
abbrev Memory (B : Type u) := UInt32 → B

variable {B : Type u}

/-- The `n` bytes from address `a` on. -/
def load (m : Memory B) (a : UInt32) (n : ℕ) : List B :=
  (List.range n).map fun k => m (a + UInt32.ofNat k)

/-- Put the bytes `bs` at address `a`. -/
def store (m : Memory B) (a : UInt32) (bs : List B) : Memory B :=
  fun x => bs[(x - a).toNat]?.getD (m x)

/-- `n` bytes at `a` and `k` bytes at `b` have no address in common. -/
def Apart (a : UInt32) (n : ℕ) (b : UInt32) (k : ℕ) : Prop :=
  ∀ i < n, ∀ j < k, a + UInt32.ofNat i ≠ b + UInt32.ofNat j

theorem Apart.symm {a b : UInt32} {n k : ℕ} (h : Apart a n b k) : Apart b k a n :=
  fun j hj i hi => (h i hi j hj).symm

/-- Stretches that follow each other without wrapping are apart. -/
theorem apart_of_le {a b : UInt32} {n k : ℕ} (hab : a.toNat + n ≤ b.toNat)
    (hb : b.toNat + k ≤ 2 ^ 32) : Apart a n b k := by
  intro i hi j hj heq
  -- neither stretch wraps
  have ha : (a + UInt32.ofNat i).toNat = a.toNat + i := by
    rw [UInt32.toNat_add, UInt32.toNat_ofNat', Nat.mod_eq_of_lt (by omega),
      Nat.mod_eq_of_lt (by omega)]
  have hb' : (b + UInt32.ofNat j).toNat = b.toNat + j := by
    rw [UInt32.toNat_add, UInt32.toNat_ofNat', Nat.mod_eq_of_lt (by omega),
      Nat.mod_eq_of_lt (by omega)]
  have h := congrArg UInt32.toNat heq
  omega

@[simp] theorem length_load (m : Memory B) (a : UInt32) (n : ℕ) : (load m a n).length = n := by
  simp [load]

/-! ## Loads after stores -/

theorem store_apply_of_apart {m : Memory B} {a x : UInt32} {bs : List B}
    (h : ∀ i < bs.length, a + UInt32.ofNat i ≠ x) : store m a bs x = m x := by
  -- an offset inside `bs` would make `x` one of the addresses written
  have hlen : ¬ (x - a).toNat < bs.length := by
    intro hlt
    apply h _ hlt
    rw [UInt32.ofNat_toNat, UInt32.add_comm, UInt32.sub_add_cancel]
  simp [store, List.getElem?_eq_none (Nat.le_of_not_lt hlen)]

theorem load_store_of_apart {m : Memory B} {a b : UInt32} {bs : List B} {k : ℕ}
    (h : Apart a bs.length b k) : load (store m a bs) b k = load m b k := by
  apply List.map_congr_left
  intro j hj
  exact store_apply_of_apart fun i hi => h i hi j (List.mem_range.1 hj)

theorem load_store (m : Memory B) (a : UInt32) (bs : List B) (h : bs.length ≤ 2 ^ 32) :
    load (store m a bs) a bs.length = bs := by
  apply List.ext_getElem
  · simp
  · intro i hi hi'
    have hlt : i < 2 ^ 32 := by omega
    -- the offset of the address is the index again
    have hoff : (a + UInt32.ofNat i - a).toNat = i := by
      rw [UInt32.add_comm, UInt32.add_sub_cancel, UInt32.toNat_ofNat', Nat.mod_eq_of_lt hlt]
    have hget : (load (store m a bs) a bs.length)[i] = store m a bs (a + UInt32.ofNat i) := by
      simp [load]
    rw [hget, store, hoff, List.getElem?_eq_getElem hi', Option.getD_some]

/-- A store over a stretch that is not longer leaves nothing of it. -/
theorem store_store (m : Memory B) (a : UInt32) {bs bs' : List B} (h : bs.length ≤ bs'.length) :
    store (store m a bs) a bs' = store m a bs' := by
  funext x
  unfold store
  by_cases hx : (x - a).toNat < bs'.length
  · rw [List.getElem?_eq_getElem hx, Option.getD_some, Option.getD_some]
  · rw [List.getElem?_eq_none (Nat.le_of_not_lt hx),
      List.getElem?_eq_none (h.trans (Nat.le_of_not_lt hx)), Option.getD_none]

/-- Two stretches at offsets `i` and `j` of one address are apart if neither
reaches the other, whatever that address is. -/
theorem apart_add {a i j : UInt32} {n k : ℕ} (hij : n ≤ (j - i).toNat)
    (hji : k ≤ (i - j).toNat) : Apart (a + i) n (a + j) k := by
  intro s hs t ht heq
  have hsum : i + UInt32.ofNat s = j + UInt32.ofNat t := by
    rw [UInt32.add_assoc, UInt32.add_assoc] at heq
    exact (UInt32.add_right_inj a).1 heq
  -- the offsets differ by less than the length of one of the stretches
  rcases Nat.le_total t s with hle | hle
  · have hdiff : j - i = UInt32.ofNat (s - t) := by
      rw [UInt32.ofNat_sub hle]
      grind
    rw [hdiff, UInt32.toNat_ofNat'] at hij
    have hmod := Nat.mod_le (s - t) (2 ^ 32)
    omega
  · have hdiff : i - j = UInt32.ofNat (t - s) := by
      rw [UInt32.ofNat_sub hle]
      grind
    rw [hdiff, UInt32.toNat_ofNat'] at hji
    have hmod := Nat.mod_le (t - s) (2 ^ 32)
    omega

/-- The same of two addresses. -/
theorem apart_of_sub {a b : UInt32} {n k : ℕ} (hab : n ≤ (b - a).toNat)
    (hba : k ≤ (a - b).toNat) : Apart a n b k := by
  have h := apart_add (a := 0) hab hba
  rwa [UInt32.zero_add, UInt32.zero_add] at h

/-! ## Several stores -/

/-- The stores of a list of addresses and bytes, one after the other. -/
def storeAll (m : Memory B) (ws : List (UInt32 × List B)) : Memory B :=
  ws.foldl (fun m w => store m w.1 w.2) m

theorem storeAll_append (m : Memory B) (ws vs : List (UInt32 × List B)) :
    storeAll m (ws ++ vs) = storeAll (storeAll m ws) vs :=
  List.foldl_append

/-- An address that no store reaches keeps its contents. -/
theorem storeAll_apply_of_apart {m : Memory B} {ws : List (UInt32 × List B)} {x : UInt32}
    (h : ∀ w ∈ ws, ∀ i < w.2.length, w.1 + UInt32.ofNat i ≠ x) : storeAll m ws x = m x := by
  induction ws generalizing m with
  | nil => rfl
  | cons w ws ih =>
      have hfirst := store_apply_of_apart (m := m) (h w List.mem_cons_self)
      have hrest := ih (m := store m w.1 w.2) fun v hv => h v (List.mem_cons_of_mem _ hv)
      exact hrest.trans hfirst

theorem load_storeAll_of_apart {m : Memory B} {ws : List (UInt32 × List B)} {b : UInt32} {k : ℕ}
    (h : ∀ w ∈ ws, Apart w.1 w.2.length b k) : load (storeAll m ws) b k = load m b k := by
  apply List.map_congr_left
  intro j hj
  exact storeAll_apply_of_apart fun w hw i hi => h w hw i hi j (List.mem_range.1 hj)

/-- Stores that are apart from each other are all there at the end. -/
theorem load_storeAll {m : Memory B} {ws : List (UInt32 × List B)}
    (hapart : ws.Pairwise fun v w => Apart v.1 v.2.length w.1 w.2.length)
    {w : UInt32 × List B} (hw : w ∈ ws) (hlen : w.2.length ≤ 2 ^ 32) :
    load (storeAll m ws) w.1 w.2.length = w.2 := by
  induction ws generalizing m with
  | nil => cases hw
  | cons v ws ih =>
      rcases List.pairwise_cons.1 hapart with ⟨hfirst, hrest⟩
      rcases List.mem_cons.1 hw with rfl | hmem
      · -- the later stores are apart from the first one
        have hlater := load_storeAll_of_apart (m := store m w.1 w.2)
          fun v hv => (hfirst v hv).symm
        exact hlater.trans (load_store m w.1 w.2 hlen)
      · exact ih hrest hmem

/-- Two memories are the same if they hold the same in some stretches of `k`
bytes, and the same at every address outside of these. -/
theorem ext_of_load {m m' : Memory B} (cells : List UInt32) (k : ℕ)
    (hcells : ∀ a ∈ cells, load m a k = load m' a k)
    (hothers : ∀ x, (∀ a ∈ cells, ∀ i < k, a + UInt32.ofNat i ≠ x) → m x = m' x) : m = m' := by
  funext x
  by_cases hx : ∃ a ∈ cells, ∃ i < k, a + UInt32.ofNat i = x
  · rcases hx with ⟨a, ha, i, hi, rfl⟩
    have hget := congrArg (fun bs : List B => bs[i]?) (hcells a ha)
    simpa [load, hi] using hget
  · push Not at hx
    exact hothers x hx

/-! ## Fixed-width values -/

/-- The value of type `T` at address `a`. -/
def read (T : Type v) {n : ℕ} [FixedWidth B T n] (m : Memory B) (a : UInt32) : T :=
  FixedWidth.decode (load m a n)

/-- Put the value `x` at address `a`. -/
def write {T : Type v} {n : ℕ} [FixedWidth B T n] (m : Memory B) (a : UInt32) (x : T) :
    Memory B :=
  store m a (FixedWidth.encode x)

theorem read_write {T : Type v} {n : ℕ} [FixedWidth B T n] (m : Memory B) (a : UInt32) (x : T)
    (h : n ≤ 2 ^ 32) : read T (write m a x) a = x := by
  have hlen : (FixedWidth.encode x : List B).length = n := FixedWidth.length_encode x
  have hl := load_store m a (FixedWidth.encode x : List B) (by omega)
  rw [hlen] at hl
  rw [read, write, hl, FixedWidth.decode_encode]

theorem read_write_of_apart {T : Type v} {S : Type v} {n k : ℕ} [FixedWidth B T n]
    [FixedWidth B S k] {m : Memory B} {a b : UInt32} {x : T} (h : Apart a n b k) :
    read S (write m a x) b = read S m b := by
  have hlen : (FixedWidth.encode x : List B).length = n := FixedWidth.length_encode x
  rw [read, read, write, load_store_of_apart (by rwa [hlen])]

theorem write_write {T : Type v} {S : Type v} {n : ℕ} [FixedWidth B T n] [FixedWidth B S n]
    (m : Memory B) (a : UInt32) (x : T) (y : S) : write (write m a x) a y = write m a y := by
  apply store_store
  rw [FixedWidth.length_encode, FixedWidth.length_encode]

end AddressSpace
