import Mathlib.Data.List.Induction
import HobbitSynchrony.Lib.Lines
import HobbitSynchrony.WinCrypto

/-! # Encrypted messages

`NetworkUtilities/Message.h` and `Message.cpp`. A message is sent as a text of
header lines; the body is a text of its own, one line for each part between
two marker lines, and is sent encrypted.

* `Message.getMessageToSend`, `Message.receiving`: the text, and the constructor
  that takes it apart;
* `readEnvelope`: what the receiver has before it decrypts anything;
* `envelope_round_trip`: it is the type and both ciphertexts, whatever bytes they are;
* `receiving_sent`: what the receiver makes of a message;
* `round_trip_iff`: when the same parts come back;
* `part_with_newline`: a part that comes back as two.
-/

namespace HobbitSynchrony.NetworkUtilities

open Lines

/-- `enum class MessageType`. -/
inductive MessageType where
  | greeting
  | event
  | snap
  | unknown
deriving DecidableEq, Repr

/-- `messageTypeToString`. -/
def messageTypeToString : MessageType → Bytes
  | .greeting => ascii "GREETING"
  | .event => ascii "EVENT"
  | .snap => ascii "SNAP"
  | .unknown => ascii "UNKNOWN"

/-- The separator of `std::getline`. -/
def newline : UInt8 := 10

def bodyStart : Bytes := ascii "BODY_START"
def bodyEnd : Bytes := ascii "BODY_END"

/-- `std::to_string` of a size. -/
def toDecimal (n : UInt64) : Bytes := (Nat.toDigits 10 n.toNat).map fun c => UInt8.ofNat c.toNat

/-- `Message`. -/
structure Message where
  type : MessageType
  encryptedSessionKey : Bytes
  messageSize : UInt64
  messageBodyParts : List Bytes
  encryptedMessageBody : Bytes
  symmetricSessionKey : Bytes

namespace Message

/-! ## Sending -/

/-- The constructor for sending, with the session key that
`generateRandomSymmetricKey` returns. -/
def sending (crypto : WinCrypto) (type : MessageType) (recipientPublicKey : crypto.PublicKey)
    (sessionKey : Bytes) : Message where
  type := type
  encryptedSessionKey := crypto.encryptWithPublicKey sessionKey recipientPublicKey
  messageSize := 0
  messageBodyParts := []
  encryptedMessageBody := []
  symmetricSessionKey := sessionKey

/-- `updateMessageSize`. -/
def updateMessageSize (m : Message) : Message :=
  let size := m.messageBodyParts.foldl (fun size part => size + UInt64.ofNat part.length) 0
  let size := size + UInt64.ofNat ((messageTypeToString m.type).length + 5)
  let size := size + UInt64.ofNat ((bytesToHex m.encryptedSessionKey).length + 14)
  let size := size + UInt64.ofNat ((toDecimal size).length + 6)
  let size := size + UInt64.ofNat (ascii "ENCRYPTED_BODY:\n").length
  let size := size + UInt64.ofNat (ascii "BODY_START\n").length
  let size := size + UInt64.ofNat (ascii "BODY_END").length
  let size := size + UInt64.ofNat (m.messageBodyParts.length * 1)
  { m with messageSize := size }

/-- `pushBody` of a string. -/
def pushBody (m : Message) (data : Bytes) : Message :=
  updateMessageSize { m with messageBodyParts := m.messageBodyParts ++ [data] }

/-- The text of the body. -/
def rawBodyContent (parts : List Bytes) : Bytes :=
  bodyStart ++ newline :: (unlines newline parts ++ bodyEnd)

/-- `generateEncryptedMessageForSending`. -/
def generateEncryptedMessageForSending (crypto : WinCrypto) (m : Message) : Message :=
  { m with
    encryptedMessageBody :=
      crypto.aesEncrypt (rawBodyContent m.messageBodyParts) m.symmetricSessionKey }

/-- `getMessageToSend`. -/
def getMessageToSend (m : Message) : Bytes :=
  unlines newline
      [ascii "TYPE:" ++ messageTypeToString m.type,
        ascii "ENCRYPTED_KEY:" ++ bytesToHex m.encryptedSessionKey,
        ascii "SIZE:" ++ toDecimal m.messageSize] ++
    (ascii "ENCRYPTED_BODY:" ++ bytesToHex m.encryptedMessageBody)

/-! ## Receiving -/

/-- The local variables of the loop over the header lines. -/
structure Header where
  type : MessageType
  hexEncryptedKey : Bytes
  hexEncryptedBody : Bytes

/-- The type that a `TYPE:` line sets. -/
def Header.setType (header : Header) (typeStr : Bytes) : Header :=
  if typeStr = ascii "GREETING" then { header with type := .greeting }
  else if typeStr = ascii "EVENT" then { header with type := .event }
  else if typeStr = ascii "SNAP" then { header with type := .snap }
  else header

/-- One turn of the loop over the header lines. -/
def Header.readLine (header : Header) (line : Bytes) : Header :=
  if ascii "TYPE:" <+: line then header.setType (line.drop 5)
  else if ascii "ENCRYPTED_KEY:" <+: line then { header with hexEncryptedKey := line.drop 14 }
  else if ascii "ENCRYPTED_BODY:" <+: line then { header with hexEncryptedBody := line.drop 15 }
  else header

def readHeader (rawReceivedMessage : Bytes) : Header :=
  (getLines newline rawReceivedMessage).foldl Header.readLine ⟨.unknown, [], []⟩

/-- The parts in the text of a body. -/
def bodyParts (decryptedBodyContent : Bytes) : List Bytes :=
  between bodyStart bodyEnd false (getLines newline decryptedBodyContent)

/-- The constructor for receiving; `none` if `hexToBytes` was not done after
`fuel` turns. -/
def receiving (crypto : WinCrypto) (fuel : ℕ) (rawReceivedMessage : Bytes)
    (myPrivateKey : crypto.PrivateKey) : Option Message := do
  let header := readHeader rawReceivedMessage
  let encryptedSessionKey ← hexToBytes fuel header.hexEncryptedKey
  let encryptedMessageBody ← hexToBytes fuel header.hexEncryptedBody
  let symmetricSessionKey := crypto.decryptWithPrivateKey encryptedSessionKey myPrivateKey
  let decryptedBodyContent := crypto.aesDecrypt encryptedMessageBody symmetricSessionKey
  return {
    type := header.type
    encryptedSessionKey := encryptedSessionKey
    messageSize := 0
    messageBodyParts := bodyParts decryptedBodyContent
    encryptedMessageBody := encryptedMessageBody
    symmetricSessionKey := symmetricSessionKey }

/-- What the constructor for receiving has found before it decrypts. -/
structure Envelope where
  type : MessageType
  encryptedSessionKey : Bytes
  encryptedMessageBody : Bytes
deriving DecidableEq, Repr

/-- The constructor for receiving, up to the first call of `WinCrypto`. -/
def readEnvelope (fuel : ℕ) (rawReceivedMessage : Bytes) : Option Envelope := do
  let header := readHeader rawReceivedMessage
  let encryptedSessionKey ← hexToBytes fuel header.hexEncryptedKey
  let encryptedMessageBody ← hexToBytes fuel header.hexEncryptedBody
  return ⟨header.type, encryptedSessionKey, encryptedMessageBody⟩

/-- The constructor for receiving, from the first call of `WinCrypto` on. -/
def Envelope.decrypt (crypto : WinCrypto) (envelope : Envelope)
    (myPrivateKey : crypto.PrivateKey) : Message :=
  let symmetricSessionKey :=
    crypto.decryptWithPrivateKey envelope.encryptedSessionKey myPrivateKey
  { type := envelope.type
    encryptedSessionKey := envelope.encryptedSessionKey
    messageSize := 0
    messageBodyParts :=
      bodyParts (crypto.aesDecrypt envelope.encryptedMessageBody symmetricSessionKey)
    encryptedMessageBody := envelope.encryptedMessageBody
    symmetricSessionKey := symmetricSessionKey }

/-- The constructor is its two halves. -/
theorem receiving_eq (crypto : WinCrypto) (fuel : ℕ) (rawReceivedMessage : Bytes)
    (myPrivateKey : crypto.PrivateKey) :
    receiving crypto fuel rawReceivedMessage myPrivateKey =
      (readEnvelope fuel rawReceivedMessage).map fun envelope =>
        envelope.decrypt crypto myPrivateKey := by
  unfold receiving readEnvelope
  dsimp only
  cases hexToBytes fuel (readHeader rawReceivedMessage).hexEncryptedKey with
  | none => rfl
  | some key =>
      cases hexToBytes fuel (readHeader rawReceivedMessage).hexEncryptedBody with
      | none => rfl
      | some body => rfl

/-! ## The header -/

theorem newline_notMem_toDecimal (n : UInt64) : newline ∉ toDecimal n := by
  unfold toDecimal
  rw [List.mem_map]
  rintro ⟨c, hc, heq⟩
  have hdigit := Nat.isDigit_of_mem_toDigits (b := 10) (by omega) (Nat.le_refl 10) hc
  rw [Char.isDigit_iff_toNat] at hdigit
  have hbounds : 48 ≤ c.toNat ∧ c.toNat ≤ 57 := hdigit
  have hnat := congrArg UInt8.toNat heq
  rw [UInt8.toNat_ofNat'] at hnat
  have hnewline : newline.toNat = 10 := rfl
  omega

theorem newline_notMem_messageTypeToString (type : MessageType) :
    newline ∉ messageTypeToString type := by
  cases type <;> decide

/-- A header line with a name that has no line break. -/
theorem newline_notMem_line {name : String} (h : newline ∉ ascii name) {value : Bytes}
    (hvalue : newline ∉ value) : newline ∉ ascii name ++ value := by
  rw [List.mem_append, not_or]
  exact ⟨h, hvalue⟩

/-- A line does not start with the name of another. -/
theorem not_prefix_of_take {name line : Bytes} (h : line.take name.length ≠ name) :
    ¬ name <+: line := by
  intro hstart
  exact h (List.prefix_iff_eq_take.1 hstart).symm

theorem readLine_type (header : Header) (type : MessageType) :
    header.readLine (ascii "TYPE:" ++ messageTypeToString type) =
      { header with type := if type = .unknown then header.type else type } := by
  unfold Header.readLine
  rw [if_pos (List.prefix_append _ _), List.drop_left' (by decide)]
  cases type <;> simp [Header.setType, messageTypeToString, ascii]

theorem readLine_encryptedKey (header : Header) (value : Bytes) :
    header.readLine (ascii "ENCRYPTED_KEY:" ++ value) =
      { header with hexEncryptedKey := value } := by
  unfold Header.readLine
  rw [if_neg (not_prefix_of_take (by simp [ascii])), if_pos (List.prefix_append _ _),
    List.drop_left' (by decide)]

theorem readLine_size (header : Header) (value : Bytes) :
    header.readLine (ascii "SIZE:" ++ value) = header := by
  unfold Header.readLine
  rw [if_neg (not_prefix_of_take (by simp [ascii])),
    if_neg (not_prefix_of_take (by simp [ascii])), if_neg (not_prefix_of_take (by simp [ascii]))]

theorem readLine_encryptedBody (header : Header) (value : Bytes) :
    header.readLine (ascii "ENCRYPTED_BODY:" ++ value) =
      { header with hexEncryptedBody := value } := by
  unfold Header.readLine
  rw [if_neg (not_prefix_of_take (by simp [ascii])),
    if_neg (not_prefix_of_take (by simp [ascii])), if_pos (List.prefix_append _ _),
    List.drop_left' (by decide)]

/-- The header of a message is read back. -/
theorem readHeader_getMessageToSend (m : Message) :
    readHeader m.getMessageToSend =
      ⟨m.type, bytesToHex m.encryptedSessionKey, bytesToHex m.encryptedMessageBody⟩ := by
  have hlines : ∀ line ∈ [ascii "TYPE:" ++ messageTypeToString m.type,
      ascii "ENCRYPTED_KEY:" ++ bytesToHex m.encryptedSessionKey,
      ascii "SIZE:" ++ toDecimal m.messageSize], newline ∉ line := by
    simp only [List.forall_mem_cons, List.not_mem_nil, false_imp_iff, implies_true, and_true]
    refine ⟨?_, ?_, ?_⟩
    · exact newline_notMem_line (by decide) (newline_notMem_messageTypeToString m.type)
    · exact newline_notMem_line (by decide) (newline_notMem_bytesToHex _)
    · exact newline_notMem_line (by decide) (newline_notMem_toDecimal _)
  have hbody : newline ∉ ascii "ENCRYPTED_BODY:" ++ bytesToHex m.encryptedMessageBody :=
    newline_notMem_line (by decide) (newline_notMem_bytesToHex _)
  unfold readHeader getMessageToSend
  rw [getLines_unlines hlines, getLines_singleton hbody (by simp [ascii])]
  simp only [List.cons_append, List.nil_append, List.foldl_cons, List.foldl_nil, readLine_type,
    readLine_encryptedKey, readLine_size, readLine_encryptedBody]
  cases m.type <;> simp

/-- Ciphertexts of fewer than `2 ^ 32` digits are read as they were written, given the
fuel for it. -/
theorem readEnvelope_getMessageToSend (m : Message)
    (hkey : 2 * m.encryptedSessionKey.length < 2 ^ 32)
    (hbody : 2 * m.encryptedMessageBody.length < 2 ^ 32) {fuel : ℕ}
    (hkeyFuel : m.encryptedSessionKey.length < fuel)
    (hbodyFuel : m.encryptedMessageBody.length < fuel) :
    readEnvelope fuel m.getMessageToSend =
      some ⟨m.type, m.encryptedSessionKey, m.encryptedMessageBody⟩ := by
  unfold readEnvelope
  rw [readHeader_getMessageToSend]
  have hkeyBytes := hexToBytes_bytesToHex hkey hkeyFuel
  have hbodyBytes := hexToBytes_bytesToHex hbody hbodyFuel
  simp only [hkeyBytes, hbodyBytes, Option.bind_eq_bind, Option.bind_some]
  rfl

/-- With any fuel nothing else is read. -/
theorem eq_of_readEnvelope {m : Message} (hkey : 2 * m.encryptedSessionKey.length < 2 ^ 32)
    (hbody : 2 * m.encryptedMessageBody.length < 2 ^ 32) {fuel : ℕ} {envelope : Envelope}
    (h : readEnvelope fuel m.getMessageToSend = some envelope) :
    envelope = ⟨m.type, m.encryptedSessionKey, m.encryptedMessageBody⟩ := by
  unfold readEnvelope at h
  rw [readHeader_getMessageToSend] at h
  simp only [Option.bind_eq_bind, Option.bind_eq_some_iff] at h
  rcases h with ⟨key, hkeyBytes, body, hbodyBytes, henvelope⟩
  obtain rfl := eq_of_hexToBytes hkey hkeyBytes
  obtain rfl := eq_of_hexToBytes hbody hbodyBytes
  cases henvelope
  rfl

/-- The type and both ciphertexts come back, whatever their bytes and whatever
the size that is written between them. -/
theorem envelope_round_trip (m : Message) (hkey : m.encryptedSessionKey.length < 2 ^ 31)
    (hbody : m.encryptedMessageBody.length < 2 ^ 31) {fuel : ℕ}
    (hkeyFuel : m.encryptedSessionKey.length < fuel)
    (hbodyFuel : m.encryptedMessageBody.length < fuel) :
    readEnvelope fuel m.getMessageToSend =
      some ⟨m.type, m.encryptedSessionKey, m.encryptedMessageBody⟩ :=
  readEnvelope_getMessageToSend m (by omega) (by omega) hkeyFuel hbodyFuel

/-- Ciphertexts with a line break, a zero byte and the text of a header line. -/
theorem envelope_round_trip_lines :
    readEnvelope 12 (getMessageToSend
        ⟨.event, [10, 0, 255], 7, [], ascii "\nTYPE:SNAP\n", []⟩) =
      some ⟨.event, [10, 0, 255], ascii "\nTYPE:SNAP\n"⟩ :=
  envelope_round_trip ⟨.event, [10, 0, 255], 7, [], ascii "\nTYPE:SNAP\n", []⟩
    (by decide) (by decide) (by decide) (by decide)

/-! ## The body -/

/-- A message that has got these parts. -/
def withParts (crypto : WinCrypto) (type : MessageType) (recipientPublicKey : crypto.PublicKey)
    (sessionKey : Bytes) (parts : List Bytes) : Message :=
  parts.foldl pushBody (sending crypto type recipientPublicKey sessionKey)

/-- Pushing parts changes nothing but the parts and the size. -/
theorem foldl_pushBody (parts : List Bytes) (m : Message) :
    ∃ size, parts.foldl pushBody m =
      { m with messageBodyParts := m.messageBodyParts ++ parts, messageSize := size } := by
  induction parts using List.reverseRecOn with
  | nil => exact ⟨m.messageSize, by simp⟩
  | append_singleton parts part ih =>
      rcases ih with ⟨size, ih⟩
      rw [List.foldl_append, List.foldl_cons, List.foldl_nil, ih]
      unfold pushBody updateMessageSize
      simp only [List.append_assoc]
      exact ⟨_, rfl⟩

/-- The parts in the text of a body are the parts it was made of exactly if
none looks like more than one line or like a marker line. -/
theorem bodyParts_rawBodyContent_iff (parts : List Bytes) :
    bodyParts (rawBodyContent parts) = parts ↔
      ∀ part ∈ parts, newline ∉ part ∧ part ≠ bodyStart ∧ part ≠ bodyEnd :=
  between_unlines_iff (by decide) (by decide) (by decide) (by decide) parts

/-! ## Round trip -/

section RoundTrip

variable (crypto : WinCrypto) (pubKey : crypto.PublicKey) (privKey : crypto.PrivateKey)

/-- The message that is sent for these parts. -/
def sent (type : MessageType) (sessionKey : Bytes) (parts : List Bytes) : Message :=
  (withParts crypto type pubKey sessionKey parts).generateEncryptedMessageForSending crypto

/-- The receiver gets the type and the parts. -/
def RoundTrips (type : MessageType) (sessionKey : Bytes) (parts : List Bytes) : Prop :=
  ∃ fuel received,
    receiving crypto fuel (sent crypto pubKey type sessionKey parts).getMessageToSend privKey =
        some received ∧
      received.type = type ∧ received.messageBodyParts = parts

/-- The ciphertexts of the session key and of the body have fewer than `2 ^ 32`
hexadecimal digits. -/
def ShortCiphertexts (sessionKey : Bytes) (parts : List Bytes) : Prop :=
  2 * (crypto.encryptWithPublicKey sessionKey pubKey).length < 2 ^ 32 ∧
    2 * (crypto.aesEncrypt (rawBodyContent parts) sessionKey).length < 2 ^ 32

theorem sent_eq (type : MessageType) (sessionKey : Bytes) (parts : List Bytes) :
    ∃ size, sent crypto pubKey type sessionKey parts =
      { type := type
        encryptedSessionKey := crypto.encryptWithPublicKey sessionKey pubKey
        messageSize := size
        messageBodyParts := parts
        encryptedMessageBody := crypto.aesEncrypt (rawBodyContent parts) sessionKey
        symmetricSessionKey := sessionKey } := by
  rcases foldl_pushBody parts (sending crypto type pubKey sessionKey) with ⟨size, hparts⟩
  refine ⟨size, ?_⟩
  unfold sent withParts
  rw [hparts]
  simp [generateEncryptedMessageForSending, sending]

variable {crypto pubKey privKey}

/-- What the receiver makes of a message: nothing, or its type and what the
text of its body reads as. -/
theorem receiving_sent (h : crypto.Inverts pubKey privKey) {type : MessageType}
    {sessionKey : Bytes} {parts : List Bytes}
    (hshort : ShortCiphertexts crypto pubKey sessionKey parts) {fuel : ℕ} {received : Message}
    (hreceived : receiving crypto fuel (sent crypto pubKey type sessionKey parts).getMessageToSend
      privKey = some received) :
    received.type = type ∧ received.messageBodyParts = bodyParts (rawBodyContent parts) := by
  rcases sent_eq crypto pubKey type sessionKey parts with ⟨size, hsent⟩
  rw [receiving_eq, hsent, Option.map_eq_some_iff] at hreceived
  rcases hreceived with ⟨envelope, hread, hreceived⟩
  rw [eq_of_readEnvelope hshort.1 hshort.2 hread] at hreceived
  rw [← hreceived, Envelope.decrypt]
  simp [h.rsa, h.aes]

/-- The receiver is done if the ciphertexts are short, and only then. -/
theorem exists_receiving_iff {type : MessageType} {sessionKey : Bytes} {parts : List Bytes} :
    (∃ fuel received, receiving crypto fuel
        (sent crypto pubKey type sessionKey parts).getMessageToSend privKey = some received) ↔
      ShortCiphertexts crypto pubKey sessionKey parts := by
  rcases sent_eq crypto pubKey type sessionKey parts with ⟨size, hsent⟩
  unfold receiving
  rw [readHeader_getMessageToSend, hsent]
  simp only [Option.bind_eq_bind, Option.bind_eq_some_iff]
  constructor
  · rintro ⟨fuel, received, key, hkey, body, hbody, -⟩
    constructor
    · by_contra hlong
      rw [hexToBytes_long (by rw [length_bytesToHex]; omega)] at hkey
      cases hkey
    · by_contra hlong
      rw [hexToBytes_long (by rw [length_bytesToHex]; omega)] at hbody
      cases hbody
  · intro hshort
    let fuel := (crypto.encryptWithPublicKey sessionKey pubKey).length +
      (crypto.aesEncrypt (rawBodyContent parts) sessionKey).length + 1
    have hkey := hexToBytes_bytesToHex hshort.1 (show _ < fuel by omega)
    have hbody := hexToBytes_bytesToHex hshort.2 (show _ < fuel by omega)
    exact ⟨fuel, _, _, hkey, _, hbody, rfl⟩

/-- The same type and what the text of the body reads as come back, if the
ciphertexts are short. -/
theorem roundTrips_iff_bodyParts (h : crypto.Inverts pubKey privKey) (type : MessageType)
    (sessionKey : Bytes) (parts : List Bytes) :
    RoundTrips crypto pubKey privKey type sessionKey parts ↔
      bodyParts (rawBodyContent parts) = parts ∧
        ShortCiphertexts crypto pubKey sessionKey parts := by
  constructor
  · rintro ⟨fuel, received, hreceived, -, hparts⟩
    have hshort := exists_receiving_iff.1 ⟨fuel, received, hreceived⟩
    have hread := receiving_sent h hshort hreceived
    exact ⟨hread.2.symm.trans hparts, hshort⟩
  · rintro ⟨hparts, hshort⟩
    rcases exists_receiving_iff.2 hshort with ⟨fuel, received, hreceived⟩
    have hread := receiving_sent h hshort hreceived
    exact ⟨fuel, received, hreceived, hread.1, hread.2.trans hparts⟩

/-- A message comes back exactly if no part looks like more than one line or
like a marker line, and the index of `hexToBytes` does not wrap. -/
theorem round_trip_iff (h : crypto.Inverts pubKey privKey) (type : MessageType)
    (sessionKey : Bytes) (parts : List Bytes) :
    RoundTrips crypto pubKey privKey type sessionKey parts ↔
      (∀ part ∈ parts, newline ∉ part ∧ part ≠ bodyStart ∧ part ≠ bodyEnd) ∧
        ShortCiphertexts crypto pubKey sessionKey parts := by
  rw [roundTrips_iff_bodyParts h, bodyParts_rawBodyContent_iff]

end RoundTrip

/-- A stand-in for the cryptographic functions: both ciphertexts are the data
behind 16 more bytes. -/
def shifted : WinCrypto where
  PublicKey := Unit
  PrivateKey := Unit
  encryptWithPublicKey := fun data _ => List.replicate 16 0 ++ data
  decryptWithPrivateKey := fun data _ => data.drop 16
  aesEncrypt := fun data _ => List.replicate 16 0 ++ data
  aesDecrypt := fun data _ => data.drop 16

theorem inverts_shifted : shifted.Inverts () () where
  rsa := fun data => by simp [shifted]
  aes := fun data key => by simp [shifted]

theorem shortCiphertexts_shifted {sessionKey : Bytes} {parts : List Bytes}
    (hkey : sessionKey.length < 1000) (hparts : (rawBodyContent parts).length < 1000) :
    ShortCiphertexts shifted () sessionKey parts := by
  unfold ShortCiphertexts
  simp only [shifted, List.length_append, List.length_replicate]
  omega

/-- Two sentences come back. -/
theorem round_trip_sentences :
    RoundTrips shifted () () .greeting (List.replicate 32 7)
      [ascii "Hello Bob, this is Alice!", ascii "How are you doing today?"] :=
  (round_trip_iff inverts_shifted .greeting (List.replicate 32 7) _).2
    ⟨by decide, shortCiphertexts_shifted (by decide) (by decide)⟩

/-- One part with a line break in it comes back as two. -/
theorem part_with_newline :
    ¬ RoundTrips shifted () () .greeting (List.replicate 32 7) [ascii "one\ntwo"] := by
  rw [roundTrips_iff_bodyParts inverts_shifted]
  rintro ⟨hparts, -⟩
  rw [bodyParts_rawBodyContent_iff] at hparts
  have hpart := hparts _ List.mem_cons_self
  exact hpart.1 (by decide)

end Message

end HobbitSynchrony.NetworkUtilities
