import HobbitSynchrony.Lib.FixedWidth

/-! # Messages and frames

`ServerClient/Message.h` and `Message.cpp`: the message record, its
serialization, and the frame in which `Client::sendMessage` and the server put
it on a socket (four bytes of length in network order, then the serialized
message).
-/

namespace HobbitSynchrony

open LittleEndian

/-! ## Message types -/

def baseMessage : UInt8 := 0
def textMessage : UInt8 := 1
def eventMessage : UInt8 := 2
def snapshotMessage : UInt8 := 3
def clientListMessage : UInt8 := 4
def clientIDMessage : UInt8 := 5

/-- `BaseMessage`: a type, a sender and a payload of bytes `B`. -/
structure BaseMessage (B : Type) where
  messageType : UInt8
  senderID : UInt8
  message : List B
deriving DecidableEq, Repr

/-- `BaseMessage()`. -/
def BaseMessage.empty (B : Type) : BaseMessage B :=
  { messageType := baseMessage, senderID := 0, message := [] }

/-- `BaseMessage::serializeMessage`. -/
def serializeMessage (msg : BaseMessage UInt8) : List UInt8 :=
  msg.messageType :: msg.senderID :: msg.message

/-- `BaseMessage::deserializeMessage`; `none` is the null pointer. -/
def deserializeMessage (buffer : List UInt8) : Option (BaseMessage UInt8) :=
  match buffer with
  | messageType :: senderID :: rest => some ⟨messageType, senderID, rest⟩
  | _ => none

@[simp] theorem deserializeMessage_serializeMessage (msg : BaseMessage UInt8) :
    deserializeMessage (serializeMessage msg) = some msg := rfl

@[simp] theorem length_serializeMessage (msg : BaseMessage UInt8) :
    (serializeMessage msg).length = msg.message.length + 2 := rfl

theorem serializeMessage_deserializeMessage {buffer : List UInt8} {msg : BaseMessage UInt8}
    (h : deserializeMessage buffer = some msg) : serializeMessage msg = buffer := by
  unfold deserializeMessage at h
  split at h
  · cases h
    rfl
  · simp at h

/-! ## Frames -/

/-- `htonl` on a little-endian host. -/
def htonl (x : UInt32) : UInt32 := byteSwap32 x

/-- `ntohl` on a little-endian host. -/
def ntohl (x : UInt32) : UInt32 := byteSwap32 x

/-- `htons` on a little-endian host. -/
def htons (x : UInt16) : UInt16 := byteSwap16 x

/-- `ntohs` on a little-endian host. -/
def ntohs (x : UInt16) : UInt16 := byteSwap16 x

/-- The bytes of `msgSize = htonl(buffer.size())` as `send` puts them out. -/
def frameHeader (buffer : List UInt8) : List UInt8 :=
  FixedWidth.encode (htonl (UInt32.ofNat buffer.length))

/-- The value of `msgSize` after `recv` filled it with `header` and `ntohl`. -/
def frameSize (header : List UInt8) : ℕ :=
  (ntohl (FixedWidth.decode header)).toNat

/-- Both sends of one message: the length, then the serialized message. -/
def frame (msg : BaseMessage UInt8) : List UInt8 :=
  frameHeader (serializeMessage msg) ++ serializeMessage msg

/-- The bytes of a sequence of messages sent one after the other. -/
def frames (msgs : List (BaseMessage UInt8)) : List UInt8 := msgs.flatMap frame

@[simp] theorem ntohl_htonl (x : UInt32) : ntohl (htonl x) = x := byteSwap32_byteSwap32 x

@[simp] theorem ntohs_htons (x : UInt16) : ntohs (htons x) = x := byteSwap16_byteSwap16 x

@[simp] theorem length_frameHeader (buffer : List UInt8) : (frameHeader buffer).length = 4 :=
  FixedWidth.length_encode _

theorem frameSize_frameHeader {buffer : List UInt8} (h : buffer.length < 2 ^ 32) :
    frameSize (frameHeader buffer) = buffer.length := by
  simpa [frameSize, frameHeader] using h

@[simp] theorem frames_cons (msg : BaseMessage UInt8) (msgs : List (BaseMessage UInt8)) :
    frames (msg :: msgs) = frame msg ++ frames msgs := rfl

end HobbitSynchrony
