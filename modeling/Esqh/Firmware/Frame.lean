import Esqh.Firmware.Crc

/-!
`src/frame.c`: big-endian fields, payload limits and the frame encoder and
decoder. A buffer argument is an array of the bytes the caller really owns, so
an access beyond it is an error of the computation. Both functions return the
caller's memory next to the status.
-/

namespace Esqh

open Memory

variable {n m : Nat}

def uartMarker : U8 := 0xA5
def spiMarker : U8 := 0x5A
def ethMarkerHigh : U8 := 0x45
def ethMarkerLow : U8 := 0x53

def copyBytes (destination : Vector U8 n) (d : Nat) (source : Vector U8 m) (s length : Nat) :
    Access (Vector U8 n) :=
  copy destination d source s length

def readU16 (bytes : Vector U8 n) (offset : Nat) : Access U16 := do
  let high ← read bytes offset
  let low ← read bytes (offset + 1)
  .ok ((high.setWidth 16 <<< 8) ||| low.setWidth 16)

def writeU16 (bytes : Vector U8 n) (offset : Nat) (value : U16) : Access (Vector U8 n) := do
  let bytes ← write bytes offset ((value >>> 8).setWidth 8)
  write bytes (offset + 1) ((value &&& 0xff).setWidth 8)

def writeU32 (bytes : Vector U8 n) (offset : Nat) (value : U32) : Access (Vector U8 n) := do
  let bytes ← write bytes offset ((value >>> 24).setWidth 8)
  let bytes ← write bytes (offset + 1) ((value >>> 16).setWidth 8)
  let bytes ← write bytes (offset + 2) ((value >>> 8).setWidth 8)
  write bytes (offset + 3) (value.setWidth 8)

def payloadLimit (interfaceType : Int) : U16 :=
  if interfaceType = interfaceUart then 64
  else if interfaceType = interfaceSpi then 32
  else if interfaceType = interfaceCan then 8
  else if interfaceType = interfaceEthernet then 256
  else 0

def wireSize (frame : Ptr Frame) : Nat :=
  match frame with
  | none => 0
  | some frame =>
    if frame.payloadLength > payloadLimit frame.interfaceType then 0
    else if frame.interfaceType = interfaceCan then frame.payloadLength.toNat + 7
    else frame.payloadLength.toNat + 10

/-- The end of the encoder: the checksum over everything before it, and the
length written. -/
def encodeCrc (output : Vector U8 n) (crcOffset required : Nat) :
    Access (Status × Ptr (Vector U8 n) × Ptr Nat) := do
  let crc ← crc16 (some output) crcOffset
  let output ← writeU16 output crcOffset crc
  .ok (.ok, some output, some required)

/-- The encoder's common layout behind a two-byte marker. -/
def encodeMarked (frame : Frame) (output : Vector U8 n) (first second : U8) (required : Nat) :
    Access (Status × Ptr (Vector U8 n) × Ptr Nat) := do
  let output ← write output 0 first
  let output ← write output 1 second
  let output ← writeU16 output 2 frame.messageId
  let output ← writeU16 output 4 frame.sequence
  let output ← writeU16 output 6 frame.payloadLength
  let output ← copyBytes output 8 frame.payload 0 frame.payloadLength.toNat
  encodeCrc output (8 + frame.payloadLength.toNat) required

def encodeCan (frame : Frame) (output : Vector U8 n) (required : Nat) :
    Access (Status × Ptr (Vector U8 n) × Ptr Nat) := do
  let output ← writeU16 output 0 frame.messageId
  let output ← writeU16 output 2 frame.sequence
  let output ← write output 4 (frame.payloadLength.setWidth 8)
  let output ← copyBytes output 5 frame.payload 0 frame.payloadLength.toNat
  encodeCrc output (5 + frame.payloadLength.toNat) required

def frameEncode (frame : Ptr Frame) (output : Ptr (Vector U8 n)) (outputCapacity : Nat)
    (written : Ptr Nat) : Access (Status × Ptr (Vector U8 n) × Ptr Nat) :=
  match frame, output, written with
  | some frame, some bytes, some _ =>
    if frame.payloadLength > payloadLimit frame.interfaceType then
      .ok (.errLength, output, written)
    else if frame.interfaceType = interfaceCan ∧ frame.messageId > 0x07ff then
      .ok (.errRange, output, written)
    else
      let required := wireSize (some frame)
      if required = 0 ∨ outputCapacity < required then .ok (.errLength, output, written)
      else if frame.interfaceType = interfaceCan then encodeCan frame bytes required
      else if frame.interfaceType = interfaceUart then
        encodeMarked frame bytes uartMarker (BitVec.ofInt 8 frame.interfaceType) required
      else if frame.interfaceType = interfaceSpi then
        encodeMarked frame bytes spiMarker (BitVec.ofInt 8 frame.interfaceType) required
      else if frame.interfaceType = interfaceEthernet then
        encodeMarked frame bytes ethMarkerHigh ethMarkerLow required
      else .ok (.errRange, output, written)
  | _, _, _ => .ok (.errArgument, output, written)

/-- The decoder's zero-initialised local frame. -/
def zeroFrame : Frame :=
  { interfaceType := 0
    messageId := 0
    sequence := 0
    payloadLength := 0
    payload := Vector.replicate maxPayload 0 }

/-- The end of the decoder, once the header has been read into `decoded`: total
length, checksum, and only then the caller's frame. -/
def decodeTail (interfaceType : Int) (input : Vector U8 n) (inputLength : Nat)
    (frame : Ptr Frame) (decoded : Frame) (payloadLength : U16) (headerLength : Nat) :
    Access (Status × Ptr Frame) :=
  let crcOffset := headerLength + payloadLength.toNat
  if inputLength ≠ crcOffset + 2 then .ok (.errLength, frame)
  else do
    let receivedCrc ← readU16 input crcOffset
    let expectedCrc ← crc16 (some input) crcOffset
    if receivedCrc ≠ expectedCrc then .ok (.errChecksum, frame)
    else do
      let payload ← copyBytes decoded.payload 0 input headerLength payloadLength.toNat
      .ok (.ok, some { decoded with
        interfaceType := interfaceType
        payloadLength := payloadLength
        payload := payload })

def decodeCan (interfaceType : Int) (input : Vector U8 n) (inputLength : Nat)
    (frame : Ptr Frame) : Access (Status × Ptr Frame) :=
  if inputLength < 7 then .ok (.errLength, frame)
  else do
    let dlc ← read input 4
    let payloadLength : U16 := dlc.setWidth 16
    let messageId ← readU16 input 0
    let sequence ← readU16 input 2
    if messageId > 0x07ff ∨ payloadLength > 8 then .ok (.errRange, frame)
    else
      decodeTail interfaceType input inputLength frame
        { zeroFrame with messageId := messageId, sequence := sequence } payloadLength 5

def decodeMarked (interfaceType : Int) (input : Vector U8 n) (inputLength : Nat)
    (frame : Ptr Frame) : Access (Status × Ptr Frame) :=
  if inputLength < 10 then .ok (.errLength, frame)
  else do
    let first ← read input 0
    let second ← read input 1
    if (interfaceType = interfaceUart ∧
          (first ≠ uartMarker ∨ second ≠ BitVec.ofInt 8 interfaceType)) ∨
        (interfaceType = interfaceSpi ∧
          (first ≠ spiMarker ∨ second ≠ BitVec.ofInt 8 interfaceType)) ∨
        (interfaceType = interfaceEthernet ∧
          (first ≠ ethMarkerHigh ∨ second ≠ ethMarkerLow)) then
      .ok (.errRange, frame)
    else do
      let payloadLength ← readU16 input 6
      let messageId ← readU16 input 2
      let sequence ← readU16 input 4
      if payloadLength > payloadLimit interfaceType then .ok (.errLength, frame)
      else
        decodeTail interfaceType input inputLength frame
          { zeroFrame with messageId := messageId, sequence := sequence } payloadLength 8

def frameDecode (interfaceType : Int) (input : Ptr (Vector U8 n)) (inputLength : Nat)
    (frame : Ptr Frame) : Access (Status × Ptr Frame) :=
  match input, frame with
  | some input, some _ =>
    if interfaceType < interfaceUart ∨ interfaceType > interfaceEthernet then
      .ok (.errRange, frame)
    else if interfaceType = interfaceCan then
      decodeCan interfaceType input inputLength frame
    else decodeMarked interfaceType input inputLength frame
  | _, _ => .ok (.errArgument, frame)

end Esqh
