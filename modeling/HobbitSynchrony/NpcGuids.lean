import HobbitSynchrony.Lib.Lines
import HobbitSynchrony.MainPlayer
import HobbitSynchrony.NPC
import HobbitSynchrony.WinCrypto

/-! # The GUIDs of the players' figures

`HobbitClient::getPlayersNpcGuid` reads the GUIDs of the figures from a file,
and `HobbitClient::onEnterNewLevel` gives one to each of the `MAX_PLAYERS` slots.
The files and what is entered at the prompt are inputs.

* `stoull16`: `std::stoull` with base 16;
* `openFile`, `readGuids`, `getPlayersNpcGuid`: the file, its lines, and both;
* `onEnterNewLevel`: the loop over the slots;
* `safe_onEnterNewLevel_iff`: when it neither throws nor gets past the end;
* `readGuids_of_guidFile`, `slots_set`: GUIDs written as intended get to the slots.
-/

namespace HobbitSynchrony

open Lines

/-- What goes wrong on entering a level. -/
inductive LevelFault where
  /-- `std::invalid_argument` of `stoull`. -/
  | invalidArgument
  /-- `std::out_of_range` of `stoull`. -/
  | outOfRange
  /-- `guids[i]` past the end. -/
  | pastEnd
deriving DecidableEq, Repr

/-! ## Numbers -/

/-- The sign in front of a number. -/
def takeSign : Bytes → Bool × Bytes
  | 45 :: rest => (true, rest)
  | 43 :: rest => (false, rest)
  | rest => (false, rest)

/-- `0x` or `0X` in front of a hexadecimal digit is passed over. -/
def dropPrefix : Bytes → Bytes
  | zero :: x :: c :: rest =>
    if zero = 48 ∧ (x = 120 ∨ x = 88) ∧ (hexValue c).isSome then c :: rest
    else zero :: x :: c :: rest
  | rest => rest

/-- `std::stoull(str, nullptr, 16)`: white space, a sign, a prefix, and the digits
up to the first other character. -/
def stoull16 (str : Bytes) : Except LevelFault UInt64 :=
  let (negative, rest) := takeSign (str.dropWhile isSpace)
  match dropPrefix rest with
  | [] => .error .invalidArgument
  | c :: rest =>
    if (hexValue c).isNone then .error .invalidArgument
    else
      let value := hexDigits 0 (c :: rest)
      if 2 ^ 64 ≤ value then .error .outOfRange
      else .ok (if negative then -UInt64.ofNat value else UInt64.ofNat value)

/-! ## The file -/

/-- `'_'`. -/
def underscore : UInt8 := 95

/-- `'\\n'`. -/
def lineBreak : UInt8 := 10

/-- The loop over the lines of the file. -/
def readGuids : List Bytes → Except LevelFault (List UInt64)
  | [] => .ok []
  | line :: lines =>
    if underscore ∈ line then do
      let underscorePos := line.idxOf underscore
      let part2 := line.take underscorePos
      let part1 := line.drop (underscorePos + 1)
      let guid ← stoull16 (part2 ++ part1)
      let tempGUID ← readGuids lines
      return guid :: tempGUID
    else readGuids lines

/-- How the loop around the prompt ends: with an open file, with the answer `q`,
or at a prompt that is not answered. -/
inductive OpenResult where
  | opened (content : Bytes)
  | quit
  | waiting
deriving DecidableEq, Repr

/-- The loop around the prompt, for the files that can be opened and the answers
that are given. -/
def openFile (files : Bytes → Option Bytes) : List Bytes → Bytes → OpenResult
  | answers, filePath =>
    match files filePath with
    | some content => .opened content
    | none =>
      match answers with
      | [] => .waiting
      | input :: answers => if input = ascii "q" then .quit else openFile files answers input

/-- `"FAKE_BILBO_GUID.txt"`. -/
def guidFileName : Bytes := ascii "FAKE_BILBO_GUID.txt"

/-- `getPlayersNpcGuid`; `none` if it is still at the prompt. -/
def getPlayersNpcGuid (files : Bytes → Option Bytes) (answers : List Bytes) :
    Option (Except LevelFault (List UInt64)) :=
  match openFile files answers guidFileName with
  | .opened content => some (readGuids (getLines lineBreak content))
  | .quit => some (.ok [])
  | .waiting => none

/-! ## The slots -/

/-- The members of `HobbitClient` that entering a level changes. -/
structure LevelMembers (B F : Type) where
  process : HobbitProcessAnalyzer B
  guids : List UInt64
  npcs : Fin 7 → NPC
  mainPlayer : MainPlayer F
  processMessages : Bool

variable {B F : Type} [ByteLike B] [FixedWidth B F 4] [Zero F]

/-- `updateObjectStackAddress`. -/
def HobbitProcessAnalyzer.updateObjectStackAddress (process : HobbitProcessAnalyzer B) :
    HobbitProcessAnalyzer B :=
  { process with
    objectStackAddress := process.readData UInt32 0x0076F648
    objectStackSize := process.readData UInt32 0x0076F660 }

/-- The loop over the slots. -/
def setNPCs (guids : List UInt64) : List (Fin 7) → EStateM LevelFault (LevelMembers B F) Unit
  | [] => pure ()
  | i :: slots => fun s =>
    match guids[i.val]? with
    | none => .error .pastEnd s
    | some guid =>
      setNPCs guids slots
        { s with npcs := fun j =>
            if j = i then (s.npcs j).setNCP s.process guid else s.npcs j }

/-- The end of `onEnterNewLevel`, with the GUIDs that are there now. -/
def fillSlots : EStateM LevelFault (LevelMembers B F) Unit := do
  let s ← get
  setNPCs s.guids (List.finRange 7)
  modify fun s =>
    { s with mainPlayer := s.mainPlayer.readPtrs s.process, processMessages := true }

/-- `onEnterNewLevel`; `none` if it is still at the prompt. -/
def onEnterNewLevel (files : Bytes → Option Bytes) (answers : List Bytes)
    (s : LevelMembers B F) : Option (EStateM.Result LevelFault (LevelMembers B F) Unit) :=
  let s := { s with process := s.process.updateObjectStackAddress }
  if s.guids.length = 0 then
    match getPlayersNpcGuid files answers with
    | none => none
    | some (.error fault) => some (.error fault s)
    | some (.ok guids) => some (fillSlots { s with guids := guids })
  else some (fillSlots s)

/-! ## Numbers that are accepted -/

/-- A hexadecimal number of 64 bits stands at the front, behind white space, a
sign and a prefix. -/
def HexNumber (str : Bytes) : Prop :=
  let rest := dropPrefix (takeSign (str.dropWhile isSpace)).2
  (∃ c ∈ rest.head?, (hexValue c).isSome) ∧ hexDigits 0 rest < 2 ^ 64

/-- These are the strings that `stoull` does not throw on. -/
theorem stoull16_ok_iff (str : Bytes) : (∃ guid, stoull16 str = .ok guid) ↔ HexNumber str := by
  unfold stoull16 HexNumber
  dsimp only
  cases dropPrefix (takeSign (str.dropWhile isSpace)).2 with
  | nil => simp
  | cons c rest =>
      cases hdigit : hexValue c with
      | none => simp [hdigit]
      | some digit =>
          by_cases hlarge : 2 ^ 64 ≤ hexDigits 0 (c :: rest)
          · simp only [hdigit, Option.isNone_some, Bool.false_eq_true, if_false, if_pos hlarge]
            constructor
            · rintro ⟨guid, hguid⟩
              cases hguid
            · rintro ⟨-, hsmall⟩
              exact absurd hsmall (Nat.not_lt.2 hlarge)
          · simp only [hdigit, Option.isNone_some, Bool.false_eq_true, if_false, if_neg hlarge]
            constructor
            · intro _
              exact ⟨⟨c, rfl, by rw [hdigit]; rfl⟩, Nat.lt_of_not_le hlarge⟩
            · intro _
              exact ⟨_, rfl⟩

/-- The two parts of a line, joined, are the line without its first underscore. -/
theorem parts_eq_erase (line : Bytes) :
    line.take (line.idxOf underscore) ++ line.drop (line.idxOf underscore + 1) =
      line.erase underscore := by
  rw [List.erase_eq_eraseIdx_of_idxOf rfl, List.eraseIdx_eq_take_drop_succ]

/-! ## Lines that are accepted -/

/-- Every line with an underscore is a number without it. -/
def NumberLines (lines : List Bytes) : Prop :=
  ∀ line ∈ lines, underscore ∈ line → HexNumber (line.erase underscore)

/-- A line with an underscore. -/
theorem readGuids_cons_of_mem {line : Bytes} (h : underscore ∈ line) (lines : List Bytes) :
    readGuids (line :: lines) =
      (stoull16 (line.erase underscore)).bind fun guid =>
        (readGuids lines).map fun tempGUID => guid :: tempGUID := by
  rw [readGuids, if_pos h]
  dsimp only
  rw [parts_eq_erase]
  cases stoull16 (line.erase underscore) with
  | error fault => rfl
  | ok guid =>
      cases readGuids lines with
      | error fault => rfl
      | ok tempGUID => rfl

theorem readGuids_cons_of_notMem {line : Bytes} (h : underscore ∉ line) (lines : List Bytes) :
    readGuids (line :: lines) = readGuids lines := by
  rw [readGuids, if_neg h]

/-- Lines that are numbers give one GUID for each underscore. -/
theorem readGuids_ok {lines : List Bytes} (h : NumberLines lines) :
    ∃ guids, readGuids lines = .ok guids ∧
      guids.length = (lines.filter fun line => underscore ∈ line).length := by
  induction lines with
  | nil => exact ⟨[], rfl, rfl⟩
  | cons line lines ih =>
      rcases ih fun l hl => h l (List.mem_cons_of_mem line hl) with ⟨guids, hguids, hlen⟩
      by_cases hmem : underscore ∈ line
      · rcases (stoull16_ok_iff _).2 (h line List.mem_cons_self hmem) with ⟨guid, hguid⟩
        refine ⟨guid :: guids, ?_, ?_⟩
        · rw [readGuids_cons_of_mem hmem, hguid, hguids]
          rfl
        · rw [List.filter_cons_of_pos (by simpa using hmem), List.length_cons, List.length_cons,
            hlen]
      · refine ⟨guids, ?_, ?_⟩
        · rw [readGuids_cons_of_notMem hmem, hguids]
        · rw [List.filter_cons_of_neg (by simpa using hmem), hlen]

/-- Only these do. -/
theorem numberLines_of_readGuids {lines : List Bytes} {guids : List UInt64}
    (h : readGuids lines = .ok guids) : NumberLines lines := by
  induction lines generalizing guids with
  | nil =>
      intro line hline
      cases hline
  | cons line lines ih =>
      by_cases hmem : underscore ∈ line
      · rw [readGuids_cons_of_mem hmem] at h
        cases hguid : stoull16 (line.erase underscore) with
        | error fault =>
            rw [hguid] at h
            cases h
        | ok guid =>
            cases hguids : readGuids lines with
            | error fault =>
                rw [hguid, hguids] at h
                cases h
            | ok tempGUID =>
                intro l hl hunderscore
                rcases List.mem_cons.1 hl with rfl | hl
                · exact (stoull16_ok_iff _).1 ⟨guid, hguid⟩
                · exact ih hguids l hl hunderscore
      · rw [readGuids_cons_of_notMem hmem] at h
        intro l hl hunderscore
        rcases List.mem_cons.1 hl with rfl | hl
        · exact absurd hunderscore hmem
        · exact ih h l hl hunderscore

/-- And there is one GUID for each underscore then. -/
theorem length_of_readGuids {lines : List Bytes} {guids : List UInt64}
    (h : readGuids lines = .ok guids) :
    guids.length = (lines.filter fun line => underscore ∈ line).length := by
  rcases readGuids_ok (numberLines_of_readGuids h) with ⟨guids', hok, hlen⟩
  rw [hok] at h
  cases h
  exact hlen

/-! ## The loop over the slots -/

/-- The members that a loop or a function leaves, also when it fails. -/
def membersAfter : EStateM.Result LevelFault (LevelMembers B F) Unit → LevelMembers B F
  | .ok _ s => s
  | .error _ s => s

omit [FixedWidth B F 4] [Zero F] in
/-- The loop gets through if there is a GUID for every slot. -/
theorem setNPCs_ok {guids : List UInt64} {slots : List (Fin 7)} (s : LevelMembers B F)
    (h : ∀ i ∈ slots, i.val < guids.length) : ∃ s', setNPCs guids slots s = .ok () s' := by
  induction slots generalizing s with
  | nil => exact ⟨s, rfl⟩
  | cons i slots ih =>
      rw [setNPCs, List.getElem?_eq_getElem (h i List.mem_cons_self)]
      exact ih _ fun j hj => h j (List.mem_cons_of_mem i hj)

omit [FixedWidth B F 4] [Zero F] in
/-- Otherwise it gets past the end of the GUIDs. -/
theorem setNPCs_pastEnd {guids : List UInt64} {slots : List (Fin 7)} (s : LevelMembers B F)
    {i : Fin 7} (hi : i ∈ slots) (h : guids.length ≤ i.val) :
    ∃ s', setNPCs guids slots s = .error .pastEnd s' := by
  induction slots generalizing s with
  | nil => cases hi
  | cons j slots ih =>
      rw [setNPCs]
      cases hguid : guids[j.val]? with
      | none => exact ⟨s, rfl⟩
      | some guid =>
          rcases List.mem_cons.1 hi with rfl | hi
          · rw [List.getElem?_eq_none h] at hguid
            cases hguid
          · exact ih _ hi

omit [FixedWidth B F 4] [Zero F] in
/-- A slot that the loop does not get to is left as it is. -/
theorem npcs_setNPCs_of_notMem {guids : List UInt64} {slots : List (Fin 7)}
    (s : LevelMembers B F) {i : Fin 7} (hi : i ∉ slots) :
    (membersAfter (setNPCs guids slots s)).npcs i = s.npcs i := by
  induction slots generalizing s with
  | nil => rfl
  | cons j slots ih =>
      have hne : i ≠ j := fun heq => hi (by rw [heq]; exact List.mem_cons_self)
      rw [setNPCs]
      split
      · rfl
      · rw [ih _ fun hmem => hi (List.mem_cons_of_mem j hmem)]
        exact if_neg hne

omit [FixedWidth B F 4] [Zero F] in
/-- A slot gets its GUID if there is one for it and for every slot before. -/
theorem npcs_setNPCs {guids : List UInt64} {slots : List (Fin 7)} (s : LevelMembers B F)
    (hascending : slots.Pairwise (· < ·)) {i : Fin 7} (hi : i ∈ slots) {guid : UInt64}
    (hguid : guids[i.val]? = some guid) :
    (membersAfter (setNPCs guids slots s)).npcs i = (s.npcs i).setNCP s.process guid := by
  have hlt : i.val < guids.length := (List.getElem?_eq_some_iff.1 hguid).1
  induction slots generalizing s with
  | nil => cases hi
  | cons j slots ih =>
      rw [List.pairwise_cons] at hascending
      rcases List.mem_cons.1 hi with rfl | hi
      · -- the later turns leave the slot alone
        have hnotMem : i ∉ slots := fun hmem => Fin.lt_irrefl i (hascending.1 i hmem)
        rw [setNPCs, hguid]
        dsimp only
        rw [npcs_setNPCs_of_notMem _ hnotMem]
        exact if_pos rfl
      · have hji : j < i := hascending.1 i hi
        rw [setNPCs, List.getElem?_eq_getElem (show j.val < guids.length by omega)]
        dsimp only
        rw [ih _ hascending.2 hi]
        dsimp only
        rw [if_neg (Fin.ne_of_gt hji)]

/-- `fillSlots` runs the loop, and goes on to the rest if it gets through. -/
theorem fillSlots_eq (s : LevelMembers B F) :
    fillSlots s =
      match setNPCs s.guids (List.finRange 7) s with
      | .ok _ s' => .ok ()
          { s' with mainPlayer := s'.mainPlayer.readPtrs s'.process, processMessages := true }
      | .error fault s' => .error fault s' := by
  show EStateM.bind (setNPCs s.guids (List.finRange 7)) _ s = _
  rw [EStateM.bind]
  cases setNPCs s.guids (List.finRange 7) s <;> rfl

/-- It does not change the slots after the loop. -/
theorem membersAfter_fillSlots (s : LevelMembers B F) :
    (membersAfter (fillSlots s)).npcs =
      (membersAfter (setNPCs s.guids (List.finRange 7) s)).npcs := by
  rw [fillSlots_eq]
  cases setNPCs s.guids (List.finRange 7) s <;> rfl

/-! ## Safety -/

/-- Entering the level neither throws nor gets past the end of the GUIDs. -/
def Safe (r : Option (EStateM.Result LevelFault (LevelMembers B F) Unit)) : Prop :=
  ∀ fault s', r ≠ some (.error fault s')

/-- The slots are filled if there are as many GUIDs. -/
theorem safe_fillSlots_iff (s : LevelMembers B F) :
    Safe (some (fillSlots s)) ↔ 7 ≤ s.guids.length := by
  constructor
  · intro hsafe
    by_contra hshort
    have hslot : s.guids.length < 7 := Nat.lt_of_not_le hshort
    rcases setNPCs_pastEnd s (List.mem_finRange ⟨s.guids.length, hslot⟩) (Nat.le_refl _)
      with ⟨s', hrun⟩
    refine hsafe .pastEnd s' ?_
    rw [fillSlots_eq, hrun]
  · intro hlen fault s' hfault
    rcases setNPCs_ok s fun (i : Fin 7) (_ : i ∈ List.finRange 7) =>
      Nat.lt_of_lt_of_le i.isLt hlen with ⟨s'', hrun⟩
    rw [fillSlots_eq, hrun] at hfault
    cases hfault

/-- What a file must hold: every line with an underscore is a number without it,
and there are seven of them. -/
def EnoughNumbers (content : Bytes) : Prop :=
  NumberLines (getLines lineBreak content) ∧
    7 ≤ ((getLines lineBreak content).filter fun line => underscore ∈ line).length

/-- What the files and the answers must be: a file that holds enough is opened,
or the prompt is not answered with `q`. -/
def EnoughGuids (files : Bytes → Option Bytes) (answers : List Bytes) : Prop :=
  match openFile files answers guidFileName with
  | .opened content => EnoughNumbers content
  | .quit => False
  | .waiting => True

/-- A level is entered safely exactly with GUIDs for all slots: those that the
client has, or those that are read if it has none. -/
theorem safe_onEnterNewLevel_iff (files : Bytes → Option Bytes) (answers : List Bytes)
    (s : LevelMembers B F) :
    Safe (onEnterNewLevel files answers s) ↔
      7 ≤ s.guids.length ∨ s.guids = [] ∧ EnoughGuids files answers := by
  unfold onEnterNewLevel
  dsimp only
  by_cases hguids : s.guids = []
  · rw [hguids, List.length_nil, if_pos rfl]
    unfold getPlayersNpcGuid EnoughGuids
    cases openFile files answers guidFileName with
    | waiting => simp [Safe]
    | quit =>
        dsimp only
        rw [safe_fillSlots_iff]
        simp
    | opened content =>
        dsimp only
        unfold EnoughNumbers
        cases hread : readGuids (getLines lineBreak content) with
        | error fault =>
            dsimp only
            constructor
            · intro hsafe
              exact absurd rfl (hsafe fault _)
            · rintro (hlong | ⟨-, hnumbers, -⟩)
              · cases hlong
              · rcases readGuids_ok hnumbers with ⟨guids, hok, -⟩
                rw [hok] at hread
                cases hread
        | ok guids =>
            have hnumbers := numberLines_of_readGuids hread
            dsimp only
            rw [safe_fillSlots_iff, ← length_of_readGuids hread]
            simp [hnumbers]
  · have hpos : s.guids.length ≠ 0 := fun hzero => hguids (List.length_eq_zero_iff.1 hzero)
    rw [if_neg hpos, safe_fillSlots_iff]
    simp [hguids]

/-! ## GUIDs written as intended -/

/-- The characters that are hexadecimal digits. -/
theorem range_of_hexValue {c : UInt8} (h : (hexValue c).isSome) :
    (48 ≤ c.toNat ∧ c.toNat ≤ 57) ∨ (97 ≤ c.toNat ∧ c.toNat ≤ 102) ∨
      (65 ≤ c.toNat ∧ c.toNat ≤ 70) := by
  unfold hexValue at h
  simp only [UInt8.le_iff_toNat_le, UInt8.reduceToNat] at h
  split at h
  next hdigit => exact Or.inl hdigit
  next =>
    split at h
    next hlower => exact Or.inr (Or.inl hlower)
    next =>
      split at h
      next hupper => exact Or.inr (Or.inr hupper)
      next => cases h

/-- Two or more digits have no white space, sign or prefix in front of them. -/
theorem stoull16_digits {c c' : UInt8} {rest : Bytes} (hc : (hexValue c).isSome)
    (hc' : (hexValue c').isSome) (hsmall : hexDigits 0 (c :: c' :: rest) < 2 ^ 64) :
    stoull16 (c :: c' :: rest) = .ok (UInt64.ofNat (hexDigits 0 (c :: c' :: rest))) := by
  have hrange := range_of_hexValue hc
  have hrange' := range_of_hexValue hc'
  have hne (k : UInt8) (hk : c.toNat ≠ k.toNat) : c ≠ k := fun heq => hk (by rw [heq])
  have hne' (k : UInt8) (hk : c'.toNat ≠ k.toNat) : c' ≠ k := fun heq => hk (by rw [heq])
  have hspace : isSpace c = false := by
    have hblank : c ≠ 32 := hne 32 (by simp; omega)
    have hhigh : ¬ c ≤ 13 := by
      rw [UInt8.le_iff_toNat_le]
      simp
      omega
    simp [isSpace, hblank, hhigh]
  have hsign : takeSign (c :: c' :: rest) = (false, c :: c' :: rest) := by
    unfold takeSign
    split
    next heq => exact absurd (List.cons.inj heq).1 (hne 45 (by simp; omega))
    next heq => exact absurd (List.cons.inj heq).1 (hne 43 (by simp; omega))
    next => rfl
  have hfront : dropPrefix (c :: c' :: rest) = c :: c' :: rest := by
    cases rest with
    | nil => rfl
    | cons d rest =>
        have hx : ¬ (c' = 120 ∨ c' = 88) := by
          rw [not_or]
          exact ⟨hne' 120 (by simp; omega), hne' 88 (by simp; omega)⟩
        rw [dropPrefix, if_neg fun hall => hx hall.2.1]
  have hdigit : ¬ (hexValue c).isNone = true := by
    rw [Option.isNone_iff_eq_none]
    intro hnone
    rw [hnone] at hc
    cases hc
  unfold stoull16
  rw [List.dropWhile_cons_of_neg (by simp [hspace]), hsign]
  dsimp only
  rw [hfront]
  dsimp only
  rw [if_neg hdigit, if_neg (Nat.not_le.2 hsmall)]
  rfl

/-- A GUID as a line: eight hexadecimal digits, an underscore, eight hexadecimal
digits. -/
def GuidLine (line : Bytes) (guid : UInt64) : Prop :=
  ∃ high low : Bytes, high.length = 8 ∧ low.length = 8 ∧
    (∀ c ∈ high ++ low, (hexValue c).isSome) ∧ line = high ++ underscore :: low ∧
    hexDigits 0 (high ++ low) = guid.toNat

/-- A file with one GUID a line; the last line break may be missing. -/
def GuidFile (content : Bytes) (guids : List UInt64) : Prop :=
  ∃ lines, List.Forall₂ GuidLine lines guids ∧
    (content = unlines lineBreak lines ∨ content ++ [lineBreak] = unlines lineBreak lines)

theorem underscore_not_digit : ¬ (hexValue underscore).isSome := by decide

theorem lineBreak_not_digit : ¬ (hexValue lineBreak).isSome := by decide

/-- The line is read as its GUID. -/
theorem stoull16_guidLine {line : Bytes} {guid : UInt64} (h : GuidLine line guid) :
    underscore ∈ line ∧ stoull16 (line.erase underscore) = .ok guid := by
  rcases h with ⟨high, low, hhigh, hlow, hdigits, rfl, hvalue⟩
  have hnotMem : underscore ∉ high := fun hmem =>
    underscore_not_digit (hdigits _ (List.mem_append_left _ hmem))
  refine ⟨by simp, ?_⟩
  rw [List.erase_append_right _ hnotMem, List.erase_cons_head]
  match hstr : high ++ low with
  | [] =>
      have hlen := congrArg List.length hstr
      rw [List.length_append, hhigh, hlow] at hlen
      cases hlen
  | [_] =>
      have hlen := congrArg List.length hstr
      rw [List.length_append, hhigh, hlow] at hlen
      cases hlen
  | c :: c' :: rest =>
      rw [hstr] at hdigits hvalue
      rw [stoull16_digits (hdigits c (by simp)) (hdigits c' (by simp))
        (by rw [hvalue]; exact guid.toNat_lt), hvalue, UInt64.ofNat_toNat]

theorem lineBreak_notMem_guidLine {line : Bytes} {guid : UInt64} (h : GuidLine line guid) :
    lineBreak ∉ line := by
  rcases h with ⟨high, low, -, -, hdigits, rfl, -⟩
  intro hmem
  rcases List.mem_append.1 hmem with hmem | hmem
  · exact lineBreak_not_digit (hdigits _ (List.mem_append_left _ hmem))
  · rcases List.mem_cons.1 hmem with heq | hmem
    · exact absurd heq (by decide)
    · exact lineBreak_not_digit (hdigits _ (List.mem_append_right _ hmem))

/-- The lines of such a file are read as the GUIDs. -/
theorem readGuids_guidLines {lines : List Bytes} {guids : List UInt64}
    (h : List.Forall₂ GuidLine lines guids) : readGuids lines = .ok guids := by
  induction h with
  | nil => rfl
  | cons hline _ ih =>
      rw [readGuids_cons_of_mem (stoull16_guidLine hline).1, (stoull16_guidLine hline).2, ih]
      rfl

/-- Its lines are neither empty nor more than one. -/
theorem guidLines_single {lines : List Bytes} {guids : List UInt64}
    (h : List.Forall₂ GuidLine lines guids) : ∀ line ∈ lines, lineBreak ∉ line ∧ line ≠ [] := by
  induction h with
  | nil =>
      intro line hline
      cases hline
  | cons hfirst _ ih =>
      intro line hline
      rcases List.mem_cons.1 hline with rfl | hline
      · exact ⟨lineBreak_notMem_guidLine hfirst, List.ne_nil_of_mem (stoull16_guidLine hfirst).1⟩
      · exact ih line hline

/-- The file is read as the GUIDs. -/
theorem readGuids_of_guidFile {content : Bytes} {guids : List UInt64}
    (h : GuidFile content guids) : readGuids (getLines lineBreak content) = .ok guids := by
  rcases h with ⟨lines, hlines, hcontent⟩
  have hsingle := guidLines_single hlines
  have hread : getLines lineBreak content = lines := by
    rcases hcontent with rfl | hcontent
    · have hall := getLines_unlines (fun line hline => (hsingle line hline).1) []
      rw [List.append_nil] at hall
      rw [hall]
      simp [getLines]
    · -- the last line ends with the file
      rcases List.eq_nil_or_concat lines with rfl | ⟨first, last, rfl⟩
      · simp [unlines] at hcontent
      · have hsplit : content = unlines lineBreak first ++ last := by
          have hbreak : content ++ [lineBreak] =
              (unlines lineBreak first ++ last) ++ [lineBreak] := by
            rw [hcontent]
            simp [unlines]
          exact List.append_cancel_right hbreak
        have hlast := hsingle last (by simp)
        rw [hsplit, getLines_unlines fun line hline => (hsingle line (by simp [hline])).1,
          getLines_singleton hlast.1 hlast.2, List.concat_eq_append]
  rw [hread]
  exact readGuids_guidLines hlines

/-- The GUIDs of such a file get to the slots, as far as there are any: also if the
loop gets past their end then. -/
theorem slots_set {files : Bytes → Option Bytes} {answers : List Bytes} {content : Bytes}
    {guids : List UInt64} {s : LevelMembers B F} (hfile : GuidFile content guids)
    (hopen : openFile files answers guidFileName = .opened content)
    (hguids : s.guids = [] ∨ s.guids = guids) :
    ∃ r, onEnterNewLevel files answers s = some r ∧
      ∀ (i : Fin 7) (guid : UInt64), guids[i.val]? = some guid →
        (membersAfter r).npcs i =
          (s.npcs i).setNCP s.process.updateObjectStackAddress guid := by
  have hread : getPlayersNpcGuid files answers = some (.ok guids) := by
    unfold getPlayersNpcGuid
    rw [hopen]
    dsimp only
    rw [readGuids_of_guidFile hfile]
  have henter : onEnterNewLevel files answers s = some (fillSlots
      { s with process := s.process.updateObjectStackAddress, guids := guids }) := by
    unfold onEnterNewLevel
    dsimp only
    by_cases hempty : s.guids.length = 0
    · rw [if_pos hempty, hread]
    · have hsame : s.guids = guids :=
        hguids.resolve_left fun hnil => hempty (List.length_eq_zero_iff.2 hnil)
      rw [if_neg hempty, ← hsame]
  refine ⟨_, henter, ?_⟩
  intro i guid hguid
  rw [membersAfter_fillSlots]
  exact npcs_setNPCs _ (List.pairwise_lt_finRange 7) (List.mem_finRange i) hguid

/-- A level is entered safely exactly with GUIDs for all slots: those that the
client has, or those that are read if it has none. And GUIDs that are written as
intended get to the slots. -/
theorem npc_slots_filled_iff (files : Bytes → Option Bytes) (answers : List Bytes)
    (s : LevelMembers B F) :
    (Safe (onEnterNewLevel files answers s) ↔
      7 ≤ s.guids.length ∨ s.guids = [] ∧ EnoughGuids files answers) ∧
    ∀ content guids, GuidFile content guids →
      openFile files answers guidFileName = .opened content →
      (s.guids = [] ∨ s.guids = guids) →
      ∃ r, onEnterNewLevel files answers s = some r ∧
        ∀ (i : Fin 7) (guid : UInt64), guids[i.val]? = some guid →
          (membersAfter r).npcs i =
            (s.npcs i).setNCP s.process.updateObjectStackAddress guid :=
  ⟨safe_onEnterNewLevel_iff files answers s,
    fun _ _ hfile hopen hguids => slots_set hfile hopen hguids⟩

/-- A client that has no GUIDs yet. -/
def withoutGuids : LevelMembers (Cell ℤ) ℤ where
  process :=
    { isProcessSet := false, memory := fun _ => .byte 0, objectStackAddress := 0,
      objectStackSize := 0 }
  guids := []
  npcs := fun _ => NPC.new
  mainPlayer := { level := 0, enemies := [], inventory := [] }
  processMessages := false

/-- The first GUID of a file. -/
theorem first_guid_set :
    ∃ r, onEnterNewLevel (fun _ => some (ascii "0D8AD910_E8851002")) [] withoutGuids = some r ∧
      ∀ (i : Fin 7) (guid : UInt64), [(0x0D8AD910E8851002 : UInt64)][i.val]? = some guid →
        (membersAfter r).npcs i =
          (withoutGuids.npcs i).setNCP withoutGuids.process.updateObjectStackAddress guid := by
  have hdigits : (ascii "0D8AD910" ++ ascii "E8851002").all (fun c => (hexValue c).isSome) := by
    decide
  have hline : GuidLine (ascii "0D8AD910_E8851002") 0x0D8AD910E8851002 :=
    ⟨ascii "0D8AD910", ascii "E8851002", by decide, by decide, List.all_eq_true.1 hdigits,
      by decide, by decide⟩
  exact (npc_slots_filled_iff (fun _ => some (ascii "0D8AD910_E8851002")) [] withoutGuids).2
    (ascii "0D8AD910_E8851002") [0x0D8AD910E8851002]
    ⟨[ascii "0D8AD910_E8851002"], .cons hline .nil, Or.inr (by simp [unlines])⟩ rfl (Or.inl rfl)

/-- An empty file, the answer `q`, and a line that is no more than an underscore. -/
theorem empty_quit_underscore_unsafe :
    ¬ Safe (onEnterNewLevel (fun _ => some []) [] withoutGuids) ∧
      ¬ Safe (onEnterNewLevel (fun _ => none) [ascii "q"] withoutGuids) ∧
      ¬ Safe (onEnterNewLevel (fun _ => some [underscore]) [] withoutGuids) := by
  simp only [safe_onEnterNewLevel_iff, not_or, not_and]
  refine ⟨⟨by decide, fun _ henough => ?_⟩, ⟨by decide, fun _ henough => ?_⟩,
    ⟨by decide, fun _ henough => ?_⟩⟩
  · exact absurd henough.2 (by decide)
  · exact henough
  · exact absurd henough.2 (by decide)

end HobbitSynchrony
