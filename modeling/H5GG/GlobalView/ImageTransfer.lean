import H5GG.Library.Machine

/-!
# The image slot

`GVProtocol.cpp`: the header, and `GVImageTransferPublish` and `GVImageTransferConsume` one access
to the slot at a time. `memcpy` moves one byte after the other.
-/

namespace H5GG

def GV_PROTOCOL_MAGIC : Nat := 0x48354756
def GV_PROTOCOL_VERSION : Nat := 1
def GV_IMAGE_MAX_PAYLOAD : Nat := 512 * 1024
def GV_CAPABILITY_IMAGE_TRANSFER : Nat := 2 ^ 4

def sizeofGVProtocolHeader : Nat := 24
def sizeofGVImageTransfer : Nat := 524320

structure GVProtocolHeader where
  magic : Nat
  version : Nat
  headerSize : Nat
  totalSize : Nat
  reserved : Nat := 0
  capabilities : Nat
  deriving DecidableEq, Repr

def makeHeader (totalSize capabilities : Nat) : GVProtocolHeader where
  magic := GV_PROTOCOL_MAGIC
  version := GV_PROTOCOL_VERSION
  headerSize := sizeofGVProtocolHeader
  totalSize := totalSize
  capabilities := capabilities

def headerIsCompatible (header : GVProtocolHeader)
    (availableSize expectedSize requiredCapabilities : Nat) : Bool :=
  header.magic = GV_PROTOCOL_MAGIC &&
    header.version = GV_PROTOCOL_VERSION &&
    header.headerSize = sizeofGVProtocolHeader &&
    header.totalSize = expectedSize &&
    header.totalSize ≤ availableSize &&
    header.capabilities &&& requiredCapabilities = requiredCapabilities

inductive GVImageTransferState
  | idle
  | writing
  | ready
  deriving DecidableEq, Repr

structure GVImageTransfer where
  header : GVProtocolHeader
  state : GVImageTransferState := .idle
  payloadSize : Nat := 0
  payload : List UInt8 := List.replicate GV_IMAGE_MAX_PAYLOAD 0
  deriving DecidableEq

def GVImageTransferDefaultMake : GVImageTransfer where
  header := makeHeader sizeofGVImageTransfer GV_CAPABILITY_IMAGE_TRANSFER

def GVImageTransferIsCompatible (transfer : GVImageTransfer) (availableSize : Nat) : Bool :=
  sizeofGVProtocolHeader ≤ availableSize &&
    headerIsCompatible transfer.header availableSize sizeofGVImageTransfer
      GV_CAPABILITY_IMAGE_TRANSFER

/-- Where a `GVImageTransferPublish` stands. -/
inductive PublishPoint
  | entered
  | checked
  | copying (copied : Nat)
  | sized
  | returned (success : Bool)
  deriving DecidableEq, Repr

/-- A call of `GVImageTransferPublish`; a payload that is not null has its size. -/
structure PublishCall where
  payload : Option (List UInt8)
  payloadSize : Nat
  readable : ∀ bytes ∈ payload, bytes.length = payloadSize
  point : PublishPoint := .entered

/-- What a `GVImageTransferConsume` came to. -/
inductive Consumed
  | empty
  | delivered (output : List UInt8)
  | discarded (outputCapacity : Nat)
  deriving DecidableEq, Repr

/-- What it returns. -/
def Consumed.value : Consumed → Nat
  | .delivered output => output.length
  | .empty | .discarded _ => 0

/-- Where the consumer stands in a call of `GVImageTransferConsume`. -/
inductive ConsumePoint
  | waiting
  | entered (output : Bool) (outputCapacity : Nat)
  | loaded (outputCapacity : Nat)
  | copying (payloadSize : Nat) (output : List UInt8)
  | rejecting (outputCapacity : Nat)
  | releasing (result : Consumed)
  deriving DecidableEq, Repr

structure ImageSystem where
  transfer : GVImageTransfer
  publishes : List PublishCall := []
  /-- The calls that have succeeded, in the order in which they made the slot ready. -/
  published : List Nat := []
  consumer : ConsumePoint := .waiting
  /-- What the consumer's calls came to, in order. -/
  returns : List Consumed := []

inductive ImageEvent
  | publish (payload : Option (List UInt8)) (payloadSize : Nat)
      (readable : ∀ bytes ∈ payload, bytes.length = payloadSize)
  | publisher (call : Nat)
  | consume (output : Bool) (outputCapacity : Nat)
  | consumer

namespace ImageSystem

/-- The next step of one publisher, with the slot that it leaves. -/
def publisherStep (transfer : GVImageTransfer) (call : PublishCall) :
    GVImageTransfer × PublishCall :=
  match call.point with
  | .entered =>
      if !GVImageTransferIsCompatible transfer sizeofGVImageTransfer || call.payload.isNone ||
          call.payloadSize = 0 || GV_IMAGE_MAX_PAYLOAD < call.payloadSize then
        (transfer, { call with point := .returned false })
      else (transfer, { call with point := .checked })
  | .checked =>
      if transfer.state = .idle then
        ({ transfer with state := .writing }, { call with point := .copying 0 })
      else (transfer, { call with point := .returned false })
  | .copying copied =>
      match (call.payload.getD [])[copied]? with
      | some byte =>
          ({ transfer with payload := transfer.payload.set copied byte },
            { call with point := .copying (copied + 1) })
      | none =>
          ({ transfer with payloadSize := call.payloadSize }, { call with point := .sized })
  | .sized => ({ transfer with state := .ready }, { call with point := .returned true })
  | .returned _ => (transfer, call)

def consumerStep (s : ImageSystem) : ImageSystem :=
  match s.consumer with
  | .waiting => s
  | .entered output outputCapacity =>
      if !GVImageTransferIsCompatible s.transfer sizeofGVImageTransfer || !output ||
          s.transfer.state ≠ .ready then
        { s with consumer := .waiting, returns := s.returns ++ [.empty] }
      else { s with consumer := .loaded outputCapacity }
  | .loaded outputCapacity =>
      let payloadSize := s.transfer.payloadSize
      if payloadSize = 0 || GV_IMAGE_MAX_PAYLOAD < payloadSize || outputCapacity < payloadSize then
        { s with consumer := .rejecting outputCapacity }
      else { s with consumer := .copying payloadSize [] }
  | .copying payloadSize output =>
      if output.length < payloadSize then
        let byte := s.transfer.payload.getD output.length 0
        { s with consumer := .copying payloadSize (output ++ [byte]) }
      else { s with transfer.payloadSize := 0, consumer := .releasing (.delivered output) }
  | .rejecting outputCapacity =>
      { s with transfer.payloadSize := 0, consumer := .releasing (.discarded outputCapacity) }
  | .releasing result =>
      { s with
        transfer.state := .idle
        consumer := .waiting
        returns := s.returns ++ [result] }

def step : ImageEvent → ImageSystem → ImageSystem
  | .publish payload payloadSize readable, s =>
      { s with publishes := s.publishes ++ [{ payload, payloadSize, readable }] }
  | .publisher index, s =>
      match s.publishes[index]? with
      | none => s
      | some call =>
          let (transfer, next) := publisherStep s.transfer call
          { s with
            transfer
            publishes := s.publishes.set index next
            published := if call.point = .sized then s.published ++ [index] else s.published }
  | .consume output outputCapacity, s =>
      match s.consumer with
      | .waiting => { s with consumer := .entered output outputCapacity }
      | _ => s
  | .consumer, s => s.consumerStep

end ImageSystem

end H5GG
