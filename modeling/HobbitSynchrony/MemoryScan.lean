import Mathlib.Algebra.Group.Nat.Defs
import Mathlib.Data.List.Pairwise
import HobbitSynchrony.Lib.Occurrences
import HobbitSynchrony.ProcessAnalyzer

/-! # The memory scan

`ProcessAnalyzer::searchProcessMemory` goes through the memory regions of the
game and looks for a pattern in the bytes it reads of each. What the system says
about the regions is an input; `SIZE_T` has `w` bits.

* `MemoryRegion`: what the system says;
* `searchProcessMemory`: the scan;
* `searchFrom_eq`: what it finds, in terms of the occurrences;
* `finds_every_occurrence_iff`: when these are all.
-/

namespace HobbitSynchrony

open Occurrences

/-- `MEM_COMMIT`. -/
def memCommit : UInt32 := 0x1000

/-- `PAGE_READONLY`. -/
def pageReadonly : UInt32 := 0x02

/-- `PAGE_EXECUTE_READ`. -/
def pageExecuteRead : UInt32 := 0x20

/-- A region as `VirtualQueryEx` describes it, and what `ReadProcessMemory` reads
of it, if that succeeds. It does not read more than it is asked for. -/
structure MemoryRegion (w : ℕ) where
  regionSize : BitVec w
  state : UInt32
  protect : UInt32
  read : Option (List UInt8)
  length_le : ∀ bytes ∈ read, bytes.length ≤ regionSize.toNat

namespace MemoryRegion

variable {w : ℕ}

/-- The test for a readable region. -/
def isReadable (region : MemoryRegion w) : Bool :=
  region.state == memCommit &&
    (region.protect &&& pageReadonly != 0 || region.protect &&& pageReadwrite != 0 ||
      region.protect &&& pageExecuteRead != 0)

/-- The bytes that the scan reads of a region, if it reads any. -/
def scanned (region : MemoryRegion w) : Option (List UInt8) :=
  if region.isReadable then region.read else none

theorem length_le_of_scanned {region : MemoryRegion w} {bytes : List UInt8}
    (h : region.scanned = some bytes) : bytes.length ≤ region.regionSize.toNat := by
  unfold scanned at h
  split at h
  · exact region.length_le bytes h
  · cases h

end MemoryRegion

namespace ProcessAnalyzer

/-- `turns` turns of the loop over a region's bytes from index `i` on; `none` if
a comparison goes beyond the bytes read. -/
def compareFrom (pattern bytes : List UInt8) (address : ℕ) : ℕ → ℕ → Option (List UInt32)
  | 0, _ => some []
  | turns + 1, i =>
    if i + pattern.length ≤ bytes.length then
      (compareFrom pattern bytes address turns (i + 1)).map fun foundAddresses =>
        if (bytes.drop i).take pattern.length = pattern then
          UInt32.ofNat (address + i) :: foundAddresses
        else foundAddresses
    else none

/-- `bytesRead - patternSize`, in `SIZE_T`. -/
def compareBound (w : ℕ) (pattern bytes : List UInt8) : ℕ :=
  (BitVec.ofNat w bytes.length - BitVec.ofNat w pattern.length).toNat

/-- The turn of the outer loop for the region at an address. -/
def searchRegion {w : ℕ} (pattern : List UInt8) (address : ℕ) (region : MemoryRegion w) :
    Option (List UInt32) :=
  match region.scanned with
  | none => some []
  | some bytes => compareFrom pattern bytes address (compareBound w pattern bytes) 0

/-- The outer loop from an address on; `VirtualQueryEx` fails behind the last
region. (The regions are stretches of one address space: the address does not
wrap.) -/
def searchFrom {w : ℕ} (lpMaximumApplicationAddress : ℕ) (pattern : List UInt8) :
    ℕ → List (MemoryRegion w) → Option (List UInt32)
  | _, [] => some []
  | address, region :: regions =>
    if address < lpMaximumApplicationAddress then do
      let found ← searchRegion pattern address region
      let foundBehind ← searchFrom lpMaximumApplicationAddress pattern
        (address + region.regionSize.toNat) regions
      return found ++ foundBehind
    else some []

/-- `searchProcessMemory`; `none` if a comparison goes beyond the bytes read. -/
def searchProcessMemory {w : ℕ} (lpMaximumApplicationAddress : ℕ)
    (regions : List (MemoryRegion w)) (pattern : List UInt8) : Option (List UInt32) :=
  searchFrom lpMaximumApplicationAddress pattern 0 regions

/-! ## One region -/

variable {w : ℕ} {pattern bytes : List UInt8}

/-- Comparisons that stay inside the bytes read find the occurrences. -/
theorem compareFrom_eq (address : ℕ) {turns i : ℕ}
    (h : turns = 0 ∨ i + turns + pattern.length ≤ bytes.length + 1) :
    compareFrom pattern bytes address turns i =
      some (((List.range' i turns).filter fun k => OccursAt pattern bytes k).map fun k =>
        UInt32.ofNat (address + k)) := by
  induction turns generalizing i with
  | zero => rfl
  | succ turns ih =>
      rw [compareFrom, if_pos (by omega), ih (by omega), Option.map_some, List.range'_succ]
      by_cases hoccurs : OccursAt pattern bytes i
      · rw [if_pos (occursAt_iff_take.1 hoccurs), List.filter_cons_of_pos (by simpa using hoccurs),
          List.map_cons]
      · rw [if_neg (mt occursAt_iff_take.2 hoccurs),
          List.filter_cons_of_neg (by simpa using hoccurs)]

/-- The difference is exact if there are enough bytes. -/
theorem compareBound_of_le (hbytes : bytes.length < 2 ^ w) (h : pattern.length ≤ bytes.length) :
    compareBound w pattern bytes = bytes.length - pattern.length := by
  unfold compareBound
  rw [BitVec.toNat_sub_of_le, BitVec.toNat_ofNat, BitVec.toNat_ofNat, Nat.mod_eq_of_lt hbytes,
    Nat.mod_eq_of_lt (by omega)]
  rw [BitVec.le_def, BitVec.toNat_ofNat, BitVec.toNat_ofNat, Nat.mod_eq_of_lt hbytes,
    Nat.mod_eq_of_lt (by omega)]
  exact h

/-- Otherwise it wraps to something large. -/
theorem compareBound_pos_of_lt (hpattern : pattern.length < 2 ^ w)
    (h : bytes.length < pattern.length) : 0 < compareBound w pattern bytes := by
  have hbytes : bytes.length < 2 ^ w := by omega
  unfold compareBound
  rw [BitVec.toNat_sub, BitVec.toNat_ofNat, BitVec.toNat_ofNat, Nat.mod_eq_of_lt hbytes,
    Nat.mod_eq_of_lt hpattern, Nat.mod_eq_of_lt (by omega)]
  omega

/-- The addresses that the scan of a region finds: the loop ends before the
place of an occurrence at the end of the bytes. -/
def regionAddresses (pattern : List UInt8) (placed : ℕ × MemoryRegion w) : List ℕ :=
  match placed.2.scanned with
  | none => []
  | some bytes =>
    (occurrences pattern bytes (bytes.length - pattern.length)).map fun k => placed.1 + k

theorem mem_regionAddresses {placed : ℕ × MemoryRegion w} {a : ℕ} :
    a ∈ regionAddresses pattern placed ↔ ∃ bytes k, placed.2.scanned = some bytes ∧
      k < bytes.length - pattern.length ∧ OccursAt pattern bytes k ∧ a = placed.1 + k := by
  unfold regionAddresses
  cases placed.2.scanned with
  | none => simp
  | some bytes => simp [mem_occurrences, eq_comm, and_assoc]

/-- A region with enough bytes. -/
theorem searchRegion_eq {address : ℕ} {region : MemoryRegion w}
    (h : ∀ bytes, region.scanned = some bytes → pattern.length ≤ bytes.length) :
    searchRegion pattern address region =
      some ((regionAddresses pattern (address, region)).map UInt32.ofNat) := by
  unfold searchRegion regionAddresses
  cases hscanned : region.scanned with
  | none => rfl
  | some bytes =>
      have hle : pattern.length ≤ bytes.length := h bytes hscanned
      have hbytes : bytes.length < 2 ^ w :=
        Nat.lt_of_le_of_lt (MemoryRegion.length_le_of_scanned hscanned) region.regionSize.isLt
      dsimp only
      rw [compareBound_of_le hbytes hle, compareFrom_eq address (by omega), occurrences,
        List.range_eq_range', List.map_map]
      rfl

/-- A region with fewer bytes than the pattern: the first comparison goes beyond
them. -/
theorem searchRegion_eq_none {address : ℕ} {region : MemoryRegion w}
    (hpattern : pattern.length < 2 ^ w) (hscanned : region.scanned = some bytes)
    (h : bytes.length < pattern.length) : searchRegion pattern address region = none := by
  have hpos : 0 < compareBound w pattern bytes := compareBound_pos_of_lt hpattern h
  obtain ⟨turns, hturns⟩ : ∃ turns, compareBound w pattern bytes = turns + 1 :=
    ⟨compareBound w pattern bytes - 1, by omega⟩
  unfold searchRegion
  rw [hscanned]
  dsimp only
  rw [hturns, compareFrom, if_neg (by omega)]

/-! ## All regions -/

/-- The regions that the outer loop gets to, with their addresses. -/
def visited (lpMaximumApplicationAddress : ℕ) :
    ℕ → List (MemoryRegion w) → List (ℕ × MemoryRegion w)
  | _, [] => []
  | address, region :: regions =>
    if address < lpMaximumApplicationAddress then
      (address, region) ::
        visited lpMaximumApplicationAddress (address + region.regionSize.toNat) regions
    else []

variable {lpMaximumApplicationAddress : ℕ} {regions : List (MemoryRegion w)}

/-- Enough bytes are read of every region that the loop gets to. -/
def EnoughBytes (pattern : List UInt8) (placed : List (ℕ × MemoryRegion w)) : Prop :=
  ∀ x ∈ placed, ∀ bytes, x.2.scanned = some bytes → pattern.length ≤ bytes.length

/-- Then the scan ends with the addresses it finds in each. -/
theorem searchFrom_eq {address : ℕ}
    (h : EnoughBytes pattern (visited lpMaximumApplicationAddress address regions)) :
    searchFrom lpMaximumApplicationAddress pattern address regions =
      some (((visited lpMaximumApplicationAddress address regions).flatMap
        (regionAddresses pattern)).map UInt32.ofNat) := by
  induction regions generalizing address with
  | nil => rfl
  | cons region regions ih =>
      unfold searchFrom
      unfold visited at h ⊢
      split
      next hmax =>
        rw [if_pos hmax] at h
        rw [searchRegion_eq fun bytes => h (address, region) List.mem_cons_self bytes,
          ih fun x hx => h x (List.mem_cons_of_mem _ hx)]
        simp
      next => rfl

/-- And only then it ends. -/
theorem enoughBytes_of_searchFrom {address : ℕ} (hpattern : pattern.length < 2 ^ w)
    {found : List UInt32}
    (h : searchFrom lpMaximumApplicationAddress pattern address regions = some found) :
    EnoughBytes pattern (visited lpMaximumApplicationAddress address regions) := by
  induction regions generalizing address found with
  | nil =>
      intro x hx
      cases hx
  | cons region regions ih =>
      unfold searchFrom at h
      unfold visited
      split at h
      next hmax =>
        rw [if_pos hmax]
        simp only [Option.bind_eq_bind, Option.bind_eq_some_iff] at h
        rcases h with ⟨foundHere, hhere, foundBehind, hbehind, -⟩
        intro x hx bytes hscanned
        rcases List.mem_cons.1 hx with rfl | hx
        · by_contra hshort
          rw [searchRegion_eq_none hpattern hscanned (Nat.lt_of_not_le hshort)] at hhere
          cases hhere
        · exact ih hbehind x hx bytes hscanned
      next hmax =>
        rw [if_neg hmax]
        intro x hx
        cases hx

/-- The regions lie one behind the other. -/
theorem pairwise_visited (address : ℕ) (regions : List (MemoryRegion w)) :
    (visited lpMaximumApplicationAddress address regions).Pairwise fun x y =>
      x.1 + x.2.regionSize.toNat ≤ y.1 := by
  have hbehind : ∀ (regions : List (MemoryRegion w)) address,
      ∀ x ∈ visited lpMaximumApplicationAddress address regions, address ≤ x.1 := by
    intro regions
    induction regions with
    | nil =>
        intro address x hx
        cases hx
    | cons region regions ih =>
        intro address x hx
        unfold visited at hx
        split at hx
        · rcases List.mem_cons.1 hx with rfl | hx
          · exact Nat.le_refl _
          · exact Nat.le_trans (Nat.le_add_right _ _) (ih _ x hx)
        · cases hx
  induction regions generalizing address with
  | nil => exact List.Pairwise.nil
  | cons region regions ih =>
      unfold visited
      split
      · exact List.Pairwise.cons (fun x hx => hbehind regions _ x hx) (ih _)
      · exact List.Pairwise.nil

/-! ## Every occurrence -/

/-- The pattern stands at an address: in the bytes read of a readable region. -/
def OccursInMemory (lpMaximumApplicationAddress : ℕ) (regions : List (MemoryRegion w))
    (pattern : List UInt8) (a : ℕ) : Prop :=
  ∃ x ∈ visited lpMaximumApplicationAddress 0 regions, ∃ bytes k,
    x.2.scanned = some bytes ∧ OccursAt pattern bytes k ∧ a = x.1 + k

/-- No comparison goes beyond the bytes read, and the addresses that are returned
are those of the pattern, in ascending order. -/
def FindsEveryOccurrence (lpMaximumApplicationAddress : ℕ) (regions : List (MemoryRegion w))
    (pattern : List UInt8) : Prop :=
  ∃ foundAddresses, searchProcessMemory lpMaximumApplicationAddress regions pattern =
      some foundAddresses ∧
    foundAddresses.Pairwise (· < ·) ∧
    ∀ a : UInt32, a ∈ foundAddresses ↔
      OccursInMemory lpMaximumApplicationAddress regions pattern a.toNat

/-- An occurrence lies in its region. -/
theorem lt_regionSize {placed : ℕ × MemoryRegion w} {k : ℕ} (hpattern : pattern ≠ [])
    (hscanned : placed.2.scanned = some bytes) (hoccurs : OccursAt pattern bytes k) :
    k < placed.2.regionSize.toNat := by
  have hend := hoccurs.le hpattern
  have hbytes := MemoryRegion.length_le_of_scanned hscanned
  have hpos : 0 < pattern.length := List.length_pos_iff.2 hpattern
  omega

/-- An address lies in one region only. -/
theorem visited_unique {x y : ℕ × MemoryRegion w}
    (hx : x ∈ visited lpMaximumApplicationAddress 0 regions)
    (hy : y ∈ visited lpMaximumApplicationAddress 0 regions) {i j : ℕ}
    (hi : i < x.2.regionSize.toNat) (hj : j < y.2.regionSize.toNat) (h : x.1 + i = y.1 + j) :
    x = y := by
  let Apart (x y : ℕ × MemoryRegion w) : Prop :=
    x = y ∨ x.1 + x.2.regionSize.toNat ≤ y.1 ∨ y.1 + y.2.regionSize.toNat ≤ x.1
  have : Std.Symm Apart := ⟨fun x y hxy => hxy.imp Eq.symm Or.symm⟩
  have hpairwise : (visited lpMaximumApplicationAddress 0 regions).Pairwise Apart :=
    (pairwise_visited 0 regions).imp fun hxy => Or.inr (Or.inl hxy)
  have hself : ∀ x ∈ visited lpMaximumApplicationAddress 0 regions, Apart x x :=
    fun x _ => Or.inl rfl
  rcases hpairwise.forall_of_forall hself hx hy with heq | hle | hle
  · exact heq
  · omega
  · omega

/-- The addresses that are found ascend. -/
theorem pairwise_addresses (hpattern : pattern ≠ []) :
    ((visited lpMaximumApplicationAddress 0 regions).flatMap (regionAddresses pattern)).Pairwise
      (· < ·) := by
  rw [List.pairwise_flatMap]
  constructor
  · intro x hx
    unfold regionAddresses
    cases x.2.scanned with
    | none => exact List.Pairwise.nil
    | some bytes =>
        rw [List.pairwise_map]
        exact (pairwise_occurrences _ _ _).imp fun hlt => Nat.add_lt_add_left hlt _
  · refine (pairwise_visited 0 regions).imp ?_
    intro x y hxy a ha b hb
    rcases mem_regionAddresses.1 ha with ⟨bytes, k, hscanned, -, hoccurs, rfl⟩
    rcases mem_regionAddresses.1 hb with ⟨bytes', k', -, -, -, rfl⟩
    have hk := lt_regionSize hpattern hscanned hoccurs
    omega

/-- What is found is there. -/
theorem occursInMemory_of_mem {a : ℕ}
    (h : a ∈ (visited lpMaximumApplicationAddress 0 regions).flatMap (regionAddresses pattern)) :
    OccursInMemory lpMaximumApplicationAddress regions pattern a := by
  rcases List.mem_flatMap.1 h with ⟨x, hx, ha⟩
  rcases mem_regionAddresses.1 ha with ⟨bytes, k, hscanned, -, hoccurs, heq⟩
  exact ⟨x, hx, bytes, k, hscanned, hoccurs, heq⟩

/-- The pattern does not stand at the end of the bytes of a region. -/
def NoneAtEnd (pattern : List UInt8) (placed : List (ℕ × MemoryRegion w)) : Prop :=
  ∀ x ∈ placed, ∀ bytes, x.2.scanned = some bytes → ¬ pattern <:+ bytes

/-- Everything is found exactly if nothing stands at the end of a region. -/
theorem forall_mem_iff (hpattern : pattern ≠ [])
    (henough : EnoughBytes pattern (visited lpMaximumApplicationAddress 0 regions)) :
    (∀ a, OccursInMemory lpMaximumApplicationAddress regions pattern a →
      a ∈ (visited lpMaximumApplicationAddress 0 regions).flatMap (regionAddresses pattern)) ↔
      NoneAtEnd pattern (visited lpMaximumApplicationAddress 0 regions) := by
  constructor
  · intro hall x hx bytes hscanned hsuffix
    have hle := henough x hx bytes hscanned
    have hlast := (occursAt_last_iff hle).2 hsuffix
    -- an occurrence at the end is in no other region, and not below the bound in this one
    have hmem := hall _ ⟨x, hx, bytes, _, hscanned, hlast, rfl⟩
    rcases List.mem_flatMap.1 hmem with ⟨y, hy, ha⟩
    rcases mem_regionAddresses.1 ha with ⟨bytes', k, hscanned', hk, hoccurs, heq⟩
    obtain rfl := visited_unique hx hy (lt_regionSize hpattern hscanned hlast)
      (lt_regionSize hpattern hscanned' hoccurs) heq
    rw [hscanned] at hscanned'
    cases hscanned'
    omega
  · rintro hnone a ⟨x, hx, bytes, k, hscanned, hoccurs, rfl⟩
    refine List.mem_flatMap.2 ⟨x, hx, mem_regionAddresses.2 ⟨bytes, k, hscanned, ?_, hoccurs, rfl⟩⟩
    have hend := hoccurs.le hpattern
    have hle := henough x hx bytes hscanned
    rcases Nat.lt_or_ge k (bytes.length - pattern.length) with hlt | hge
    · exact hlt
    · have hk : k = bytes.length - pattern.length := by omega
      rw [hk] at hoccurs
      exact absurd ((occursAt_last_iff hle).1 hoccurs) (hnone x hx bytes hscanned)

/-- Below `2 ^ 32` the cast keeps an address. -/
theorem toNat_ofNat_of_low {a : ℕ} (h : a < 2 ^ 32) : (UInt32.ofNat a).toNat = a := by
  rw [UInt32.toNat_ofNat', Nat.mod_eq_of_lt h]

/-- A scan that finds every occurrence has read enough bytes of every readable
region, and the pattern does not stand at the end of them. -/
theorem enough_and_none_of_finds (hpattern : pattern ≠ []) (hsize : pattern.length < 2 ^ w)
    (hlow : ∀ a, OccursInMemory lpMaximumApplicationAddress regions pattern a → a < 2 ^ 32)
    (h : FindsEveryOccurrence lpMaximumApplicationAddress regions pattern) :
    EnoughBytes pattern (visited lpMaximumApplicationAddress 0 regions) ∧
      NoneAtEnd pattern (visited lpMaximumApplicationAddress 0 regions) := by
  rcases h with ⟨foundAddresses, hfound, -, hmem⟩
  have henough := enoughBytes_of_searchFrom hsize hfound
  have heq := Option.some.inj (hfound.symm.trans (searchFrom_eq henough))
  refine ⟨henough, (forall_mem_iff hpattern henough).1 fun a ha => ?_⟩
  have hcast := toNat_ofNat_of_low (hlow a ha)
  have hreturned : UInt32.ofNat a ∈ foundAddresses := (hmem _).2 (by rwa [hcast])
  rw [heq, List.mem_map] at hreturned
  rcases hreturned with ⟨b, hb, hba⟩
  rwa [← hcast, ← hba, toNat_ofNat_of_low (hlow b (occursInMemory_of_mem hb))]

/-- And such a scan finds every occurrence. -/
theorem finds_of_enough_and_none (hpattern : pattern ≠ [])
    (hlow : ∀ a, OccursInMemory lpMaximumApplicationAddress regions pattern a → a < 2 ^ 32)
    (henough : EnoughBytes pattern (visited lpMaximumApplicationAddress 0 regions))
    (hnone : NoneAtEnd pattern (visited lpMaximumApplicationAddress 0 regions)) :
    FindsEveryOccurrence lpMaximumApplicationAddress regions pattern := by
  have hcast : ∀ a ∈ (visited lpMaximumApplicationAddress 0 regions).flatMap
      (regionAddresses pattern), (UInt32.ofNat a).toNat = a := fun a ha =>
    toNat_ofNat_of_low (hlow a (occursInMemory_of_mem ha))
  refine ⟨_, searchFrom_eq henough, ?_, ?_⟩
  · rw [List.pairwise_map]
    refine (pairwise_addresses hpattern).imp_of_mem ?_
    intro a b ha hb hab
    rw [UInt32.lt_iff_toNat_lt, hcast a ha, hcast b hb]
    exact hab
  · intro a
    rw [List.mem_map]
    constructor
    · rintro ⟨b, hb, rfl⟩
      rw [hcast b hb]
      exact occursInMemory_of_mem hb
    · intro ha
      exact ⟨a.toNat, (forall_mem_iff hpattern henough).2 hnone _ ha, UInt32.ofNat_toNat⟩

/-- The scan finds every occurrence exactly if of every readable region at least
as many bytes are read as the pattern has, and the pattern does not stand at the
end of them. -/
theorem finds_every_occurrence_iff (hpattern : pattern ≠ []) (hsize : pattern.length < 2 ^ w)
    (hlow : ∀ a, OccursInMemory lpMaximumApplicationAddress regions pattern a → a < 2 ^ 32) :
    FindsEveryOccurrence lpMaximumApplicationAddress regions pattern ↔
      ∀ x ∈ visited lpMaximumApplicationAddress 0 regions, ∀ bytes, x.2.scanned = some bytes →
        pattern.length ≤ bytes.length ∧ ¬ pattern <:+ bytes := by
  constructor
  · intro h x hx bytes hscanned
    have hboth := enough_and_none_of_finds hpattern hsize hlow h
    exact ⟨hboth.1 x hx bytes hscanned, hboth.2 x hx bytes hscanned⟩
  · intro h
    exact finds_of_enough_and_none hpattern hlow
      (fun x hx bytes hscanned => (h x hx bytes hscanned).1)
      fun x hx bytes hscanned => (h x hx bytes hscanned).2

/-- The free region at address 0. -/
def freeRegion : MemoryRegion 64 where
  regionSize := 0x10000
  state := 0x10000
  protect := 0x01
  read := none
  length_le := by simp

/-- A page behind it with a 7 that is followed by one more byte. -/
def pageWithSeven : MemoryRegion 64 where
  regionSize := 0x1000
  state := memCommit
  protect := pageReadwrite
  read := some (List.replicate 4094 0 ++ [7, 0])
  length_le := by
    intro bytes hbytes
    cases hbytes
    rw [List.length_append, List.length_replicate]
    decide

/-- A page behind it that ends with a 7. -/
def pageEndingWithSeven : MemoryRegion 64 where
  regionSize := 0x1000
  state := memCommit
  protect := pageReadwrite
  read := some (List.replicate 4095 0 ++ [7])
  length_le := by
    intro bytes hbytes
    cases hbytes
    rw [List.length_append, List.length_replicate]
    decide

/-- Two regions of which the second is small end below `2 ^ 32`. -/
theorem lt_of_occurs_behind_free {page : MemoryRegion 64} (hpage : page.regionSize = 0x1000)
    {a : ℕ} (h : OccursInMemory 0x7fff0000 [freeRegion, page] [7] a) : a < 2 ^ 32 := by
  rcases h with ⟨x, hx, bytes, k, hscanned, hoccurs, rfl⟩
  have hk := lt_regionSize (by decide) hscanned hoccurs
  have hvisited : visited 0x7fff0000 0 [freeRegion, page] =
      [(0, freeRegion), (0x10000, page)] := rfl
  rw [hvisited] at hx
  rcases List.mem_cons.1 hx with rfl | hx
  · have hsize : freeRegion.regionSize.toNat = 0x10000 := rfl
    dsimp only at hk ⊢
    omega
  · rw [List.mem_singleton.1 hx] at hk ⊢
    dsimp only at hk ⊢
    rw [hpage] at hk
    have hsize : (0x1000 : BitVec 64).toNat = 0x1000 := rfl
    omega

/-- A 7 with a byte behind it is found. -/
theorem seven_found :
    FindsEveryOccurrence 0x7fff0000 [freeRegion, pageWithSeven] [7] := by
  refine (finds_every_occurrence_iff (by decide) (by decide)
    fun a => lt_of_occurs_behind_free rfl).2 ?_
  intro x hx bytes hscanned
  have hvisited : visited 0x7fff0000 0 [freeRegion, pageWithSeven] =
      [(0, freeRegion), (0x10000, pageWithSeven)] := rfl
  rw [hvisited] at hx
  rcases List.mem_cons.1 hx with rfl | hx
  · cases hscanned
  · rw [List.mem_singleton.1 hx] at hscanned
    cases hscanned
    constructor
    · rw [List.length_append]
      exact Nat.le_add_left_of_le (by decide)
    · intro hsuffix
      have hlast : [7] <:+ [(7 : UInt8), 0] :=
        List.suffix_of_suffix_length_le hsuffix (List.suffix_append _ _) (by decide)
      exact absurd hlast (by decide)

/-- A 7 that ends a page is not. -/
theorem seven_at_end_missed :
    ¬ FindsEveryOccurrence 0x7fff0000 [freeRegion, pageEndingWithSeven] [7] := by
  intro h
  have hnone := (enough_and_none_of_finds (by decide) (by decide)
    (fun a => lt_of_occurs_behind_free rfl) h).2
  exact hnone (0x10000, pageEndingWithSeven) (List.mem_cons_of_mem _ List.mem_cons_self) _ rfl
    (List.suffix_append _ _)

end ProcessAnalyzer

end HobbitSynchrony
