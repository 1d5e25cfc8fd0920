import Esqh.Firmware.Frame

/-!
The wire format on its own terms. A `Message` is what one frame means: its
interface, identifiers and payload, with the format's limits as fields, so that
every message has an encoding. `Message.wire` is that encoding, and a frame of
the source carries a message when its fields and the used part of its payload
array say the same.
-/

namespace Esqh

open Memory

inductive Interface where
  | uart
  | spi
  | can
  | ethernet
  deriving DecidableEq, Repr

def Interface.code : Interface → Int
  | .uart => interfaceUart
  | .spi => interfaceSpi
  | .can => interfaceCan
  | .ethernet => interfaceEthernet

def Interface.limit : Interface → Nat
  | .uart => 64
  | .spi => 32
  | .can => 8
  | .ethernet => 256

/-- The fixed bytes in front of a frame. The CAN layout has none. -/
def Interface.marker : Interface → List U8
  | .uart => [uartMarker, 1]
  | .spi => [spiMarker, 2]
  | .can => []
  | .ethernet => [ethMarkerHigh, ethMarkerLow]

structure Message where
  interface : Interface
  messageId : U16
  sequence : U16
  payload : List U8
  payload_le : payload.length ≤ interface.limit
  id_le : interface = .can → messageId ≤ 0x07ff

/-- A field of two bytes, high byte first. -/
def be16 (value : U16) : List U8 := [(value >>> 8).setWidth 8, value.setWidth 8]

namespace Message

/-- One byte of length on CAN, two elsewhere. -/
def lengthField (m : Message) : List U8 :=
  if m.interface = .can then [BitVec.ofNat 8 m.payload.length]
  else be16 (BitVec.ofNat 16 m.payload.length)

def header (m : Message) : List U8 :=
  m.interface.marker ++ be16 m.messageId ++ be16 m.sequence ++ m.lengthField

def body (m : Message) : List U8 := m.header ++ m.payload

/-- The complete encoding: everything the checksum covers, then the checksum. -/
def wire (m : Message) : List U8 := m.body ++ be16 (crcOf m.body)

/-- The frame the decoder builds: the payload array is zero behind the payload. -/
def frame (m : Message) : Frame :=
  { interfaceType := m.interface.code
    messageId := m.messageId
    sequence := m.sequence
    payloadLength := BitVec.ofNat 16 m.payload.length
    payload := splice zeroFrame.payload 0 m.payload }

end Message

/-- The frame's fields and the used part of its payload are the message's. -/
structure Frame.Carries (f : Frame) (m : Message) : Prop where
  interfaceType : f.interfaceType = m.interface.code
  messageId : f.messageId = m.messageId
  sequence : f.sequence = m.sequence
  payloadLength : f.payloadLength.toNat = m.payload.length
  payload : f.payload.toList.take m.payload.length = m.payload

/-- The two frames differ at most in payload bytes beyond their length. -/
structure Frame.SameContent (f g : Frame) : Prop where
  interfaceType : f.interfaceType = g.interfaceType
  messageId : f.messageId = g.messageId
  sequence : f.sequence = g.sequence
  payloadLength : f.payloadLength = g.payloadLength
  payload : ∀ i (hi : i < maxPayload), i < f.payloadLength.toNat → f.payload[i] = g.payload[i]

/-- The encoder's validity rules for a frame. -/
def Frame.Valid (f : Frame) : Prop :=
  (interfaceUart ≤ f.interfaceType ∧ f.interfaceType ≤ interfaceEthernet) ∧
    f.payloadLength ≤ payloadLimit f.interfaceType ∧
    (f.interfaceType = interfaceCan → f.messageId ≤ 0x07ff)

instance Frame.decidableValid (f : Frame) : Decidable f.Valid := by
  unfold Frame.Valid
  infer_instance

theorem Interface.code_injective : Function.Injective Interface.code := by
  intro i j h
  cases i <;> cases j <;> first | rfl | exact absurd h (by decide)

theorem Interface.code_mem (i : Interface) :
    interfaceUart ≤ i.code ∧ i.code ≤ interfaceEthernet := by
  cases i <;> decide

/-- The four interface values are the codes of the four interfaces. -/
theorem Interface.exists_code {t : Int} (h : interfaceUart ≤ t ∧ t ≤ interfaceEthernet) :
    ∃ i : Interface, t = i.code := by
  simp only [interfaceUart, interfaceEthernet] at h
  have hcases : t = 1 ∨ t = 2 ∨ t = 3 ∨ t = 4 := by omega
  rcases hcases with rfl | rfl | rfl | rfl
  · exact ⟨.uart, rfl⟩
  · exact ⟨.spi, rfl⟩
  · exact ⟨.can, rfl⟩
  · exact ⟨.ethernet, rfl⟩

theorem Interface.code_eq_can_iff (i : Interface) : i.code = interfaceCan ↔ i = .can :=
  ⟨fun h => Interface.code_injective h, fun h => h ▸ rfl⟩

theorem payloadLimit_code (i : Interface) : (payloadLimit i.code).toNat = i.limit := by
  cases i <;> rfl

theorem Interface.limit_le (i : Interface) : i.limit ≤ maxPayload := by
  cases i <;> decide

@[simp] theorem length_be16 (value : U16) : (be16 value).length = 2 := rfl

/-- The two bytes of a field, put together again. -/
theorem be16_append (value : U16) :
    (value >>> 8).setWidth 8 ++ value.setWidth 8 = value := by
  apply BitVec.eq_of_getLsbD_eq
  intro i hi
  rw [BitVec.getLsbD_append]
  by_cases hlow : i < 8
  · simp [hlow]
  · simp [hlow, show i - 8 < 8 by omega, show 8 + (i - 8) = i by omega]

private theorem append_high {k l : Nat} (x : BitVec k) (y : BitVec l) :
    ((x ++ y) >>> l).setWidth k = x := by
  apply BitVec.eq_of_getLsbD_eq
  intro i hi
  simp [BitVec.getLsbD_append, hi]

private theorem append_low {k l : Nat} (x : BitVec k) (y : BitVec l) :
    (x ++ y).setWidth l = y := by
  apply BitVec.eq_of_getLsbD_eq
  intro i hi
  simp [BitVec.getLsbD_append, hi]

theorem be16_of_append (high low : U8) : be16 (high ++ low) = [high, low] := by
  have hhigh : ((high ++ low : U16) >>> 8).setWidth 8 = high := append_high high low
  have hlow : (high ++ low : U16).setWidth 8 = low := append_low high low
  simp [be16, hhigh, hlow]

namespace Message

theorem toNat_payload_length (m : Message) :
    (BitVec.ofNat 16 m.payload.length).toNat = m.payload.length := by
  have hlimit : m.payload.length ≤ 256 := m.payload_le.trans m.interface.limit_le
  simp only [BitVec.toNat_ofNat]
  omega

theorem length_payload_le (m : Message) : m.payload.length ≤ maxPayload :=
  m.payload_le.trans m.interface.limit_le

theorem length_header (m : Message) :
    m.header.length = if m.interface = .can then 5 else 8 := by
  cases h : m.interface <;> simp [header, lengthField, Interface.marker, h]

theorem length_wire (m : Message) : m.wire.length = m.header.length + m.payload.length + 2 := by
  simp [wire, body, Nat.add_assoc]

/-- The longest encoding is a full Ethernet payload's. -/
theorem length_wire_le (m : Message) : m.wire.length ≤ 266 := by
  have hlimit : m.payload.length ≤ 256 := m.length_payload_le
  rw [m.length_wire, m.length_header]
  split <;> omega

/-- The decoder's frame carries the message it was built from. -/
theorem frame_carries (m : Message) : m.frame.Carries m where
  interfaceType := rfl
  messageId := rfl
  sequence := rfl
  payloadLength := m.toNat_payload_length
  payload := take_splice_zero _ _ m.length_payload_le

theorem frame_injective : Function.Injective Message.frame := by
  intro m m' h
  have hm := m.frame_carries
  have hm' := m'.frame_carries
  rw [← h] at hm'
  have hlength : m.payload.length = m'.payload.length :=
    hm.payloadLength.symm.trans hm'.payloadLength
  have hinterface := Interface.code_injective (hm.interfaceType.symm.trans hm'.interfaceType)
  have hid := hm.messageId.symm.trans hm'.messageId
  have hsequence := hm.sequence.symm.trans hm'.sequence
  have hpayload : m.payload = m'.payload := by
    rw [← hm.payload, ← hm'.payload, hlength]
  cases m
  cases m'
  simp_all

/-- The whole encoding, its checksum included, has checksum zero. -/
theorem crcOf_wire (m : Message) : crcOf m.wire = 0 := by
  rw [wire, be16, crcOf_append_eq_zero_iff, be16_append]

end Message

theorem Frame.Carries.valid {f : Frame} {m : Message} (h : f.Carries m) : f.Valid := by
  refine ⟨?_, ?_, ?_⟩
  · rw [h.interfaceType]
    exact m.interface.code_mem
  · rw [BitVec.le_def, h.interfaceType, payloadLimit_code, h.payloadLength]
    exact m.payload_le
  · intro hcan
    rw [h.messageId]
    exact m.id_le ((Interface.code_eq_can_iff _).mp (h.interfaceType ▸ hcan))

/-- Frames that carry one message have the same content. -/
theorem Frame.Carries.sameContent {f g : Frame} {m : Message} (hf : f.Carries m)
    (hg : g.Carries m) : f.SameContent g where
  interfaceType := hf.interfaceType.trans hg.interfaceType.symm
  messageId := hf.messageId.trans hg.messageId.symm
  sequence := hf.sequence.trans hg.sequence.symm
  payloadLength := BitVec.eq_of_toNat_eq (hf.payloadLength.trans hg.payloadLength.symm)
  payload := by
    intro i hi hused
    rw [hf.payloadLength] at hused
    have hsame := congrArg (fun payload => payload[i]?) (hf.payload.trans hg.payload.symm)
    simpa [List.getElem?_take, hused, hi] using hsame

theorem Frame.SameContent.valid {f g : Frame} (h : f.SameContent g) (hg : g.Valid) : f.Valid := by
  unfold Frame.Valid
  rw [h.interfaceType, h.messageId, h.payloadLength]
  exact hg

/-- Every frame the encoder's rules admit carries a message. -/
theorem Frame.Valid.exists_message {f : Frame} (h : f.Valid) : ∃ m, f.Carries m := by
  obtain ⟨hrange, hlimit, hid⟩ := h
  obtain ⟨i, hi⟩ := Interface.exists_code hrange
  rw [BitVec.le_def, hi, payloadLimit_code] at hlimit
  have hmax := hlimit.trans i.limit_le
  have hlength : (f.payload.toList.take f.payloadLength.toNat).length =
      f.payloadLength.toNat := by
    simp [hmax]
  let m : Message :=
    { interface := i
      messageId := f.messageId
      sequence := f.sequence
      payload := f.payload.toList.take f.payloadLength.toNat
      payload_le := hlength.trans_le hlimit
      id_le := fun hcan => hid (by rw [hi, hcan]; rfl) }
  exact ⟨m, hi, rfl, rfl, hlength.symm, by rw [hlength]⟩

theorem Frame.Carries.wireSize_eq {f : Frame} {m : Message} (h : f.Carries m) :
    wireSize (some f) = m.wire.length := by
  have hlimit : ¬ f.payloadLength > payloadLimit f.interfaceType :=
    BitVec.not_lt.mpr h.valid.2.1
  rw [m.length_wire, m.length_header, wireSize, if_neg hlimit, h.interfaceType,
    h.payloadLength]
  simp only [Interface.code_eq_can_iff]
  split <;> omega

end Esqh
