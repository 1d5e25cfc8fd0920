import Esqh.Firmware.Message
import Mathlib.Data.List.Basic

/-!
The encoder and the decoder of `src/frame.c` against the wire format. The
encoder writes `Message.wire` of the message its frame carries, and the decoder
succeeds exactly on the encodings of messages of the requested interface.
-/

namespace Esqh

open Memory

variable {n : Nat}

theorem read_eq_ok (bytes : Vector U8 n) (offset : Nat) (value : U8)
    (h : bytes.toList[offset]? = some value) : read bytes offset = .ok value := by
  obtain ⟨hlt, hget⟩ := List.getElem?_eq_some_iff.mp h
  rw [read_of_lt bytes (by simpa using hlt)]
  simpa using hget

theorem readU16_eq_ok (bytes : Vector U8 n) (offset : Nat) (high low : U8)
    (hhigh : bytes.toList[offset]? = some high)
    (hlow : bytes.toList[offset + 1]? = some low) :
    readU16 bytes offset = .ok (high ++ low) := by
  rw [readU16, read_eq_ok _ _ _ hhigh, ok_bind, read_eq_ok _ _ _ hlow, ok_bind]
  congr 1
  apply BitVec.eq_of_getLsbD_eq
  intro i hi
  rw [BitVec.getLsbD_append]
  by_cases hi8 : i < 8
  · simp [hi8, hi]
  · simp [hi8, hi, BitVec.getLsbD_of_ge low i (by omega)]

theorem writeU16_eq_splice (bytes : Vector U8 n) (offset : Nat) (value : U16)
    (h : offset + 1 < n) :
    writeU16 bytes offset value = .ok (splice bytes offset (be16 value)) := by
  have hlow : (value &&& 0xff).setWidth 8 = value.setWidth 8 := by
    have hmask : (0xff : U16).setWidth 8 = BitVec.allOnes 8 := by decide
    rw [BitVec.setWidth_and, hmask, BitVec.and_allOnes]
  rw [writeU16, write_eq_splice _ _ (by omega), ok_bind, write_eq_splice _ _ h, hlow,
    splice_splice _ _ _ _ _ (by simp)]
  rfl

section Encode

variable (output : Vector U8 n)

theorem encodeCrc_splice (body : List U8) (required : Nat) (h : body.length + 2 ≤ n) :
    encodeCrc (splice output 0 body) body.length required =
      .ok (.ok, some (splice output 0 (body ++ be16 (crcOf body))), some required) := by
  rw [encodeCrc, crc16_eq _ _ (by omega), take_splice_zero _ _ (by omega), ok_bind,
    writeU16_eq_splice _ _ _ (by omega), ok_bind, splice_splice _ _ _ _ _ (by simp)]

theorem copyBytes_payload {f : Frame} {m : Message} (h : f.Carries m) (bytes : Vector U8 n)
    (offset : Nat) (hfit : offset + m.payload.length ≤ n) :
    copyBytes bytes offset f.payload 0 f.payloadLength.toNat =
      .ok (splice bytes offset m.payload) := by
  have hmax := m.length_payload_le
  rw [copyBytes, h.payloadLength, copy_eq_splice _ _ _ _ _ hfit (by omega), List.drop_zero,
    h.payload]

theorem encodeCan_eq {f : Frame} {m : Message} (h : f.Carries m) (hcan : m.interface = .can)
    (required : Nat) (hfit : m.wire.length ≤ n) :
    encodeCan f output required = .ok (.ok, some (splice output 0 m.wire), some required) := by
  have hheader : m.header.length = 5 := by simp [m.length_header, hcan]
  have hlength := m.length_wire
  have hbody : m.body.length = 5 + m.payload.length := by simp [Message.body, hheader]
  have hfield : f.payloadLength.setWidth 8 = BitVec.ofNat 8 m.payload.length := by
    rw [← BitVec.ofNat_toNat, h.payloadLength]
  have hsplit : m.body = be16 m.messageId ++ (be16 m.sequence ++
      ([BitVec.ofNat 8 m.payload.length] ++ m.payload)) := by
    simp [Message.body, Message.header, Message.lengthField, Interface.marker, hcan]
  rw [encodeCan, writeU16_eq_splice _ _ _ (by omega), ok_bind,
    writeU16_eq_splice _ _ _ (by omega), ok_bind, write_eq_splice _ _ (by omega), ok_bind,
    copyBytes_payload h _ _ (by omega), ok_bind, h.messageId, h.sequence, hfield,
    splice_splice _ _ _ _ _ (by simp), splice_splice _ _ _ _ _ (by simp),
    splice_splice _ _ _ _ _ (by simp), ← hsplit, h.payloadLength, ← hbody]
  exact encodeCrc_splice output m.body required (by omega)

theorem encodeMarked_eq {f : Frame} {m : Message} (h : f.Carries m) (hcan : m.interface ≠ .can)
    (first second : U8) (hmarker : m.interface.marker = [first, second]) (required : Nat)
    (hfit : m.wire.length ≤ n) :
    encodeMarked f output first second required =
      .ok (.ok, some (splice output 0 m.wire), some required) := by
  have hheader : m.header.length = 8 := by simp [m.length_header, hcan]
  have hlength := m.length_wire
  have hbody : m.body.length = 8 + m.payload.length := by simp [Message.body, hheader]
  have hfield : f.payloadLength = BitVec.ofNat 16 m.payload.length := by
    rw [← h.payloadLength, BitVec.ofNat_toNat, BitVec.setWidth_eq]
  have hsplit : m.body = [first] ++ ([second] ++ (be16 m.messageId ++ (be16 m.sequence ++
      (be16 (BitVec.ofNat 16 m.payload.length) ++ m.payload)))) := by
    simp [Message.body, Message.header, Message.lengthField, hmarker, hcan]
  rw [encodeMarked, write_eq_splice _ _ (by omega), ok_bind, write_eq_splice _ _ (by omega),
    ok_bind, writeU16_eq_splice _ _ _ (by omega), ok_bind,
    writeU16_eq_splice _ _ _ (by omega), ok_bind, writeU16_eq_splice _ _ _ (by omega), ok_bind,
    copyBytes_payload h _ _ (by omega), ok_bind, h.messageId, h.sequence, h.payloadLength,
    hfield, splice_splice _ _ _ _ _ (by simp), splice_splice _ _ _ _ _ (by simp),
    splice_splice _ _ _ _ _ (by simp), splice_splice _ _ _ _ _ (by simp),
    splice_splice _ _ _ _ _ (by simp), ← hsplit, ← hbody]
  exact encodeCrc_splice output m.body required (by omega)

/-- The encoder writes the encoding of the message its frame carries at the
front of the buffer, and nothing behind it. It needs no more of the buffer than
the encoding fills. -/
theorem frameEncode_of_fits {f : Frame} {m : Message} (h : f.Carries m) (capacity : Nat)
    (written : Nat) (hcapacity : m.wire.length ≤ capacity) (hfit : m.wire.length ≤ n) :
    frameEncode (some f) (some output) capacity (some written) =
      .ok (.ok, some (splice output 0 m.wire), some m.wire.length) := by
  obtain ⟨_, hlimit, hid⟩ := h.valid
  have hsize := h.wireSize_eq
  have hpositive : m.wire.length ≠ 0 := by
    rw [m.length_wire]
    omega
  have hlimit' : ¬ f.payloadLength > payloadLimit f.interfaceType := BitVec.not_lt.mpr hlimit
  have hid' : ¬ (f.interfaceType = interfaceCan ∧ f.messageId > 0x07ff) :=
    fun hboth => BitVec.not_lt.mpr (hid hboth.1) hboth.2
  have hroom : ¬ (m.wire.length = 0 ∨ capacity < m.wire.length) := by omega
  simp only [frameEncode, hlimit', if_false, hid', hsize, hroom]
  rw [h.interfaceType]
  cases hinterface : m.interface with
  | uart =>
      exact encodeMarked_eq output h (by simp [hinterface]) uartMarker 1
        (by simp [hinterface, Interface.marker]) _ hfit
  | spi =>
      exact encodeMarked_eq output h (by simp [hinterface]) spiMarker 2
        (by simp [hinterface, Interface.marker]) _ hfit
  | can => exact encodeCan_eq output h hinterface _ hfit
  | ethernet =>
      exact encodeMarked_eq output h (by simp [hinterface]) ethMarkerHigh ethMarkerLow
        (by simp [hinterface, Interface.marker]) _ hfit

theorem frameEncode_of_carries {f : Frame} {m : Message} (h : f.Carries m) (capacity : Nat)
    (written : Nat) (hcapacity : m.wire.length ≤ capacity) (hbuffer : capacity ≤ n) :
    frameEncode (some f) (some output) capacity (some written) =
      .ok (.ok, some (splice output 0 m.wire), some m.wire.length) :=
  frameEncode_of_fits output h capacity written hcapacity (hcapacity.trans hbuffer)

/-- The encoder's guards let a frame pass only if it is valid and fits the
capacity. All of them stand in front of the first write and look at no buffer. -/
theorem frameEncode_refuses (f : Frame) (capacity written : Nat) :
    (f.Valid ∧ wireSize (some f) ≤ capacity) ∨
    ∃ status, status ≠ .ok ∧ ∀ (n : Nat) (output : Vector U8 n),
      frameEncode (some f) (some output) capacity (some written) =
        .ok (status, some output, some written) := by
  by_cases hlimit : f.payloadLength > payloadLimit f.interfaceType
  · exact .inr ⟨.errLength, by simp, fun n output => by simp [frameEncode, hlimit]⟩
  by_cases hid : f.interfaceType = interfaceCan ∧ f.messageId > 0x07ff
  · right
    refine ⟨.errRange, by simp, fun n output => ?_⟩
    simp only [frameEncode, hlimit, if_false]
    rw [if_pos hid]
  by_cases hroom : wireSize (some f) = 0 ∨ capacity < wireSize (some f)
  · right
    refine ⟨.errLength, by simp, fun n output => ?_⟩
    simp only [frameEncode, hlimit, hid, if_false]
    rw [if_pos hroom]
  by_cases hinterface : interfaceUart ≤ f.interfaceType ∧ f.interfaceType ≤ interfaceEthernet
  · left
    refine ⟨⟨hinterface, BitVec.not_lt.mp hlimit, fun hcan => ?_⟩, by omega⟩
    exact BitVec.not_lt.mp fun hover => hid ⟨hcan, hover⟩
  · right
    refine ⟨.errRange, by simp, fun n output => ?_⟩
    simp only [interfaceUart, interfaceEthernet] at hinterface
    have hnone : f.interfaceType ≠ interfaceCan ∧ f.interfaceType ≠ interfaceUart ∧
        f.interfaceType ≠ interfaceSpi ∧ f.interfaceType ≠ interfaceEthernet := by
      simp only [interfaceUart, interfaceSpi, interfaceCan, interfaceEthernet]
      omega
    simp only [frameEncode, hlimit, hroom, hnone, if_false, false_and]

theorem frameEncode_guards (f : Frame) (capacity written : Nat) :
    (f.Valid ∧ wireSize (some f) ≤ capacity) ∨
    ∃ status, status ≠ .ok ∧
      frameEncode (some f) (some output) capacity (some written) =
        .ok (status, some output, some written) := by
  rcases frameEncode_refuses f capacity written with hpass | ⟨status, hstatus, h⟩
  · exact .inl hpass
  · exact .inr ⟨status, hstatus, h n output⟩

/-- A frame the encoder accepts carries a message that fits the capacity. -/
theorem carries_of_frameEncode_ok {f : Frame} {capacity written : Nat}
    {output' : Ptr (Vector U8 n)} {written' : Ptr Nat}
    (h : frameEncode (some f) (some output) capacity (some written) =
      .ok (.ok, output', written')) : ∃ m, f.Carries m ∧ m.wire.length ≤ capacity := by
  rcases frameEncode_guards output f capacity written with
    ⟨hvalid, hfit⟩ | ⟨status, hstatus, hguard⟩
  · obtain ⟨m, hm⟩ := hvalid.exists_message
    exact ⟨m, hm, hm.wireSize_eq ▸ hfit⟩
  · rw [hguard] at h
    simp only [Except.ok.injEq, Prod.mk.injEq] at h
    exact absurd h.1 hstatus

end Encode

section Decode

/-- A decoder call returns, and keeps the caller's frame unless it accepts. -/
def Settles (answer : Access (Status × Ptr Frame)) (kept : Frame) : Prop :=
  ∃ status frame, answer = .ok (status, some frame) ∧ (status ≠ .ok → frame = kept)

theorem Settles.of_eq {answer : Access (Status × Ptr Frame)} {kept : Frame}
    {status : Status} (h : answer = .ok (status, some kept)) : Settles answer kept :=
  ⟨status, kept, h, fun _ => rfl⟩

variable (t : Int) (input : Vector U8 n) (destination : Ptr Frame) (decoded : Frame)
  (payloadLength : U16) (header : List U8)

/-- The frame an accepting decoder returns. -/
def acceptedFrame (payload : List U8) : Frame :=
  { decoded with
    interfaceType := t
    payloadLength := payloadLength
    payload := splice decoded.payload 0 payload }

theorem decodeTail_of_length_ne (headerLength : Nat)
    (h : n ≠ headerLength + payloadLength.toNat + 2) :
    decodeTail t input n destination decoded payloadLength headerLength =
      .ok (.errLength, destination) := by
  simp [decodeTail, h]

/-- With the right total length the decoder compares the last two bytes with
the checksum of what stands before them. -/
theorem decodeTail_of_split (payload : List U8) (high low : U8)
    (hinput : input.toList = header ++ (payload ++ [high, low]))
    (hlength : payloadLength.toNat = payload.length) (hmax : payload.length ≤ maxPayload) :
    decodeTail t input n destination decoded payloadLength header.length =
      if high ++ low ≠ crcOf (header ++ payload) then .ok (.errChecksum, destination)
      else .ok (.ok, some (acceptedFrame t decoded payloadLength payload)) := by
  have hn : n = header.length + payload.length + 2 := by
    have htotal := congrArg List.length hinput
    simp only [Vector.length_toList, List.length_append, List.length_cons,
      List.length_nil] at htotal
    omega
  have htake : input.toList.take (header.length + payload.length) = header ++ payload := by
    rw [hinput, ← List.append_assoc, List.take_left' (by simp)]
  have hread : readU16 input (header.length + payload.length) = .ok (high ++ low) := by
    apply readU16_eq_ok
    · rw [hinput, ← List.append_assoc, List.getElem?_append_right (by simp)]
      simp
    · rw [hinput, ← List.append_assoc, List.getElem?_append_right (by simp)]
      simp
  have hcopy : copyBytes decoded.payload 0 input header.length payload.length =
      .ok (splice decoded.payload 0 payload) := by
    rw [copyBytes, copy_eq_splice _ _ _ _ _ (by omega) (by omega), hinput, List.drop_left,
      List.take_left]
  have hlength' : ¬ n ≠ header.length + payload.length + 2 := not_not.mpr hn
  simp only [decodeTail, hlength, hlength', if_false, hread, ok_bind,
    crc16_eq input _ (show header.length + payload.length ≤ n by omega), htake, hcopy]
  rfl

/-- Every input behind the header either has the wrong length or splits into
payload and checksum. -/
theorem exists_split (rest : List U8) (hinput : input.toList = header ++ rest)
    (h : n = header.length + payloadLength.toNat + 2) :
    ∃ payload high low, rest = payload ++ [high, low] ∧
      payloadLength.toNat = payload.length := by
  have hrest : rest.length = payloadLength.toNat + 2 := by
    have htotal := congrArg List.length hinput
    simp only [Vector.length_toList, List.length_append] at htotal
    omega
  have hlast : (rest.drop payloadLength.toNat).length = 2 := by simp [hrest]
  obtain ⟨high, low, hpair⟩ := List.length_eq_two.mp hlast
  refine ⟨rest.take payloadLength.toNat, high, low, ?_, by simp [hrest]⟩
  rw [← hpair, List.take_append_drop]

theorem decodeTail_settles (rest : List U8) (hinput : input.toList = header ++ rest)
    (hmax : payloadLength.toNat ≤ maxPayload) (kept : Frame) :
    Settles (decodeTail t input n (some kept) decoded payloadLength header.length) kept := by
  by_cases hn : n = header.length + payloadLength.toNat + 2
  · obtain ⟨payload, high, low, rfl, hlength⟩ :=
      exists_split input payloadLength header rest hinput hn
    rw [decodeTail_of_split t input (some kept) decoded payloadLength header payload high low
      hinput hlength (hlength ▸ hmax)]
    split
    · exact Settles.of_eq rfl
    · exact ⟨_, _, rfl, fun h => absurd rfl h⟩
  · exact Settles.of_eq (decodeTail_of_length_ne t input (some kept) decoded payloadLength _ hn)

theorem decodeTail_ok_iff (rest : List U8) (hinput : input.toList = header ++ rest)
    (hmax : payloadLength.toNat ≤ maxPayload) (g : Frame) :
    decodeTail t input n destination decoded payloadLength header.length = .ok (.ok, some g) ↔
      ∃ payload, payloadLength.toNat = payload.length ∧
        rest = payload ++ be16 (crcOf (header ++ payload)) ∧
        g = acceptedFrame t decoded payloadLength payload := by
  constructor
  · intro h
    by_cases hn : n = header.length + payloadLength.toNat + 2
    · obtain ⟨payload, high, low, rfl, hlength⟩ :=
        exists_split input payloadLength header rest hinput hn
      rw [decodeTail_of_split t input destination decoded payloadLength header payload high low
        hinput hlength (hlength ▸ hmax)] at h
      split at h
      · simp at h
      · rename_i hcrc
        rw [not_not] at hcrc
        refine ⟨payload, hlength, ?_, ?_⟩
        · rw [← hcrc, be16_of_append]
        · simpa using h.symm
    · rw [decodeTail_of_length_ne t input destination decoded payloadLength _ hn] at h
      simp at h
  · rintro ⟨payload, hlength, rfl, rfl⟩
    rw [be16] at hinput
    rw [decodeTail_of_split t input destination decoded payloadLength header payload _ _
      hinput hlength (hlength ▸ hmax), be16_append]
    simp

/-- The first five bytes of a long enough input, one by one. -/
private theorem split5 (bytes : List U8) (h : 5 ≤ bytes.length) :
    ∃ a b c d e rest, bytes = [a, b, c, d, e] ++ rest := by
  rcases bytes with _ | ⟨a, _ | ⟨b, _ | ⟨c, _ | ⟨d, _ | ⟨e, rest⟩⟩⟩⟩⟩
  case cons.cons.cons.cons.cons => exact ⟨a, b, c, d, e, rest, rfl⟩
  all_goals simp at h

/-- Reading the CAN header at its fixed places. -/
theorem decodeCan_of_header (a b c d e : U8) (rest : List U8)
    (hinput : input.toList = [a, b, c, d, e] ++ rest) (hn : ¬ n < 7) :
    decodeCan t input n destination =
      if a ++ b > (0x07ff : U16) ∨ (e.setWidth 16 : U16) > 8 then .ok (.errRange, destination)
      else
        decodeTail t input n destination
          { zeroFrame with messageId := a ++ b, sequence := c ++ d } (e.setWidth 16) 5 := by
  rw [decodeCan, if_neg hn, read_eq_ok input 4 e (by simp [hinput]), ok_bind,
    readU16_eq_ok input 0 a b (by simp [hinput]) (by simp [hinput]), ok_bind,
    readU16_eq_ok input 2 c d (by simp [hinput]) (by simp [hinput]), ok_bind]

theorem exists_message_of_decodeCan {g : Frame}
    (h : decodeCan interfaceCan input n destination = .ok (.ok, some g)) :
    ∃ m : Message, m.interface = .can ∧ input.toList = m.wire ∧ g = m.frame := by
  by_cases hn : n < 7
  · simp [decodeCan, hn] at h
  obtain ⟨a, b, c, d, e, rest, hinput⟩ := split5 input.toList (by simp; omega)
  rw [decodeCan_of_header interfaceCan input destination a b c d e rest hinput hn] at h
  split at h
  · simp at h
  rename_i hrange
  rw [not_or, BitVec.not_lt, BitVec.not_lt] at hrange
  obtain ⟨hid, hdlc⟩ := hrange
  rw [BitVec.le_def, BitVec.toNat_setWidth_of_le (by omega)] at hdlc
  have hdlc' : e.toNat ≤ 8 := hdlc
  obtain ⟨payload, hlength, hrest, hg⟩ :=
    (decodeTail_ok_iff interfaceCan input destination _ _ [a, b, c, d, e] rest hinput
      (by rw [BitVec.toNat_setWidth_of_le (by omega)]; exact hdlc'.trans (by decide)) g).mp h
  rw [BitVec.toNat_setWidth_of_le (by omega)] at hlength
  let m : Message :=
    { interface := .can
      messageId := a ++ b
      sequence := c ++ d
      payload := payload
      payload_le := by rw [← hlength]; exact hdlc'
      id_le := fun _ => hid }
  have hheader : m.header = [a, b, c, d, e] := by
    simp [m, Message.header, Message.lengthField, Interface.marker, be16_of_append, ← hlength]
  refine ⟨m, rfl, ?_, ?_⟩
  · simp [Message.wire, Message.body, hheader, hinput, hrest, m]
  · have hfield : (e.setWidth 16 : U16) = BitVec.ofNat 16 payload.length := by
      rw [← hlength, BitVec.ofNat_toNat]
    rw [hg, hfield]
    rfl

theorem decodeCan_of_message (m : Message) (hcan : m.interface = .can)
    (hinput : input.toList = m.wire) :
    decodeCan interfaceCan input n destination = .ok (.ok, some m.frame) := by
  have hlimit : m.payload.length ≤ 8 := by
    have h := m.payload_le
    rwa [hcan] at h
  have hfield : ((BitVec.ofNat 8 m.payload.length).setWidth 16 : U16) =
      BitVec.ofNat 16 m.payload.length := by
    apply BitVec.eq_of_toNat_eq
    simp
    omega
  have hheader : m.header = be16 m.messageId ++ be16 m.sequence ++
      [BitVec.ofNat 8 m.payload.length] := by
    simp [Message.header, Message.lengthField, Interface.marker, hcan]
  have hsplit : input.toList = (be16 m.messageId ++ be16 m.sequence ++
      [BitVec.ofNat 8 m.payload.length]) ++ (m.payload ++ be16 (crcOf m.body)) := by
    rw [hinput, Message.wire, Message.body, hheader, List.append_assoc]
  have hn : ¬ n < 7 := by
    have htotal := congrArg List.length hsplit
    simp at htotal
    omega
  have hid : ¬ (m.messageId > 0x07ff ∨ BitVec.ofNat 16 m.payload.length > 8) := by
    rw [not_or, BitVec.not_lt, BitVec.not_lt, BitVec.le_def (x := BitVec.ofNat _ _),
      m.toNat_payload_length]
    exact ⟨m.id_le hcan, hlimit⟩
  rw [decodeCan_of_header interfaceCan input destination _ _ _ _ _ _ hsplit hn, be16_append,
    be16_append, hfield, if_neg hid]
  apply (decodeTail_ok_iff interfaceCan input destination _ _ _ _ hsplit
    (by rw [m.toNat_payload_length]; exact m.length_payload_le) _).mpr
  refine ⟨m.payload, m.toNat_payload_length, ?_, ?_⟩
  · rw [Message.body, hheader]
  · simp [Message.frame, acceptedFrame, hcan, Interface.code]

theorem decodeCan_ok_iff (g : Frame) :
    decodeCan interfaceCan input n destination = .ok (.ok, some g) ↔
      ∃ m : Message, m.interface = .can ∧ input.toList = m.wire ∧ g = m.frame := by
  constructor
  · exact exists_message_of_decodeCan input destination
  · rintro ⟨m, hcan, hinput, rfl⟩
    exact decodeCan_of_message input destination m hcan hinput

private theorem split8 (bytes : List U8) (h : 8 ≤ bytes.length) :
    ∃ a b c d e f g k rest, bytes = [a, b, c, d, e, f, g, k] ++ rest := by
  obtain ⟨a, b, c, d, e, tail, rfl⟩ := split5 bytes (by omega)
  rcases tail with _ | ⟨f, _ | ⟨g, _ | ⟨k, rest⟩⟩⟩
  case cons.cons.cons => exact ⟨a, b, c, d, e, f, g, k, rest, rfl⟩
  all_goals simp at h

/-- The decoder's marker test fails exactly on the interface's own marker. -/
theorem marker_mismatch_iff (i : Interface) (hcan : i ≠ .can) (first second : U8) :
    ((i.code = interfaceUart ∧ (first ≠ uartMarker ∨ second ≠ BitVec.ofInt 8 i.code)) ∨
        (i.code = interfaceSpi ∧ (first ≠ spiMarker ∨ second ≠ BitVec.ofInt 8 i.code)) ∨
        (i.code = interfaceEthernet ∧ (first ≠ ethMarkerHigh ∨ second ≠ ethMarkerLow))) ↔
      i.marker ≠ [first, second] := by
  have hcodes : interfaceUart ≠ interfaceSpi ∧ interfaceUart ≠ interfaceEthernet ∧
      interfaceSpi ≠ interfaceEthernet := by decide
  cases i with
  | can => exact absurd rfl hcan
  | _ => simp [Interface.code, Interface.marker, hcodes, eq_comm, ← not_and_or]

/-- Reading the marked header at its fixed places. -/
theorem decodeMarked_of_header (i : Interface) (hcan : i ≠ .can) (a b c d e f g k : U8)
    (rest : List U8) (hinput : input.toList = [a, b, c, d, e, f, g, k] ++ rest)
    (hn : ¬ n < 10) :
    decodeMarked i.code input n destination =
      if i.marker ≠ [a, b] then .ok (.errRange, destination)
      else if g ++ k > payloadLimit i.code then .ok (.errLength, destination)
      else
        decodeTail i.code input n destination
          { zeroFrame with messageId := c ++ d, sequence := e ++ f } (g ++ k) 8 := by
  rw [decodeMarked, if_neg hn, read_eq_ok input 0 a (by simp [hinput]), ok_bind,
    read_eq_ok input 1 b (by simp [hinput]), ok_bind]
  simp only [marker_mismatch_iff i hcan]
  rw [readU16_eq_ok input 6 g k (by simp [hinput]) (by simp [hinput]), ok_bind,
    readU16_eq_ok input 2 c d (by simp [hinput]) (by simp [hinput]), ok_bind,
    readU16_eq_ok input 4 e f (by simp [hinput]) (by simp [hinput]), ok_bind]

theorem exists_message_of_decodeMarked {i : Interface} (hcan : i ≠ .can) {g : Frame}
    (h : decodeMarked i.code input n destination = .ok (.ok, some g)) :
    ∃ m : Message, m.interface = i ∧ input.toList = m.wire ∧ g = m.frame := by
  by_cases hn : n < 10
  · simp [decodeMarked, hn] at h
  obtain ⟨a, b, c, d, e, f, l, k, rest, hinput⟩ := split8 input.toList (by simp; omega)
  rw [decodeMarked_of_header input destination i hcan a b c d e f l k rest hinput hn] at h
  split at h
  · simp at h
  rename_i hmarker
  split at h
  · simp at h
  rename_i hlimit
  rw [not_not] at hmarker
  rw [BitVec.not_lt, BitVec.le_def, payloadLimit_code] at hlimit
  obtain ⟨payload, hlength, hrest, hg⟩ :=
    (decodeTail_ok_iff i.code input destination _ _ [a, b, c, d, e, f, l, k] rest hinput
      (hlimit.trans i.limit_le) g).mp h
  let m : Message :=
    { interface := i
      messageId := c ++ d
      sequence := e ++ f
      payload := payload
      payload_le := by rw [← hlength]; exact hlimit
      id_le := fun h => absurd h hcan }
  have hfield : BitVec.ofNat 16 payload.length = l ++ k := by
    rw [← hlength, BitVec.ofNat_toNat, BitVec.setWidth_eq]
  have hheader : m.header = [a, b, c, d, e, f, l, k] := by
    simp [m, Message.header, Message.lengthField, hmarker, hcan, be16_of_append, hfield]
  refine ⟨m, rfl, ?_, ?_⟩
  · simp [Message.wire, Message.body, hheader, hinput, hrest, m]
  · rw [hg, ← hfield]
    rfl

theorem decodeMarked_of_message (m : Message) (hcan : m.interface ≠ .can)
    (hinput : input.toList = m.wire) :
    decodeMarked m.interface.code input n destination = .ok (.ok, some m.frame) := by
  obtain ⟨first, second, hmarker⟩ : ∃ first second, m.interface.marker = [first, second] := by
    cases h : m.interface with
    | can => exact absurd h hcan
    | uart => exact ⟨_, _, rfl⟩
    | spi => exact ⟨_, _, rfl⟩
    | ethernet => exact ⟨_, _, rfl⟩
  have hheader : m.header = [first, second] ++ be16 m.messageId ++ be16 m.sequence ++
      be16 (BitVec.ofNat 16 m.payload.length) := by
    simp [Message.header, Message.lengthField, hmarker, hcan]
  have hsplit : input.toList = ([first, second] ++ be16 m.messageId ++ be16 m.sequence ++
      be16 (BitVec.ofNat 16 m.payload.length)) ++ (m.payload ++ be16 (crcOf m.body)) := by
    rw [hinput, Message.wire, Message.body, hheader, List.append_assoc]
  have hn : ¬ n < 10 := by
    have htotal := congrArg List.length hsplit
    simp at htotal
    omega
  have hlimit : ¬ BitVec.ofNat 16 m.payload.length > payloadLimit m.interface.code := by
    rw [BitVec.not_lt, BitVec.le_def, payloadLimit_code, m.toNat_payload_length]
    exact m.payload_le
  rw [decodeMarked_of_header input destination _ hcan _ _ _ _ _ _ _ _ _ hsplit hn,
    be16_append, be16_append, be16_append, if_neg (not_not.mpr hmarker), if_neg hlimit]
  apply (decodeTail_ok_iff m.interface.code input destination _ _ _ _ hsplit
    (by rw [m.toNat_payload_length]; exact m.length_payload_le) _).mpr
  refine ⟨m.payload, m.toNat_payload_length, ?_, rfl⟩
  rw [Message.body, hheader]

theorem decodeMarked_ok_iff (i : Interface) (hcan : i ≠ .can) (g : Frame) :
    decodeMarked i.code input n destination = .ok (.ok, some g) ↔
      ∃ m : Message, m.interface = i ∧ input.toList = m.wire ∧ g = m.frame := by
  constructor
  · exact exists_message_of_decodeMarked input destination hcan
  · rintro ⟨m, rfl, hinput, rfl⟩
    exact decodeMarked_of_message input destination m hcan hinput

/-- The decoder accepts exactly the encodings of messages of the requested
interface, and returns the frame that carries the message. -/
theorem frameDecode_ok_iff (frame g : Frame) :
    frameDecode t (some input) n (some frame) = .ok (.ok, some g) ↔
      ∃ m : Message, t = m.interface.code ∧ input.toList = m.wire ∧ g = m.frame := by
  by_cases hrange : interfaceUart ≤ t ∧ t ≤ interfaceEthernet
  · obtain ⟨i, rfl⟩ := Interface.exists_code hrange
    have hrange' : ¬ (i.code < interfaceUart ∨ i.code > interfaceEthernet) := by omega
    simp only [frameDecode, hrange', if_false, Interface.code_eq_can_iff,
      Interface.code_injective.eq_iff, eq_comm (a := i) (b := Message.interface _)]
    by_cases hcan : i = .can
    · subst hcan
      rw [if_pos rfl]
      exact decodeCan_ok_iff input (some frame) g
    · rw [if_neg hcan]
      exact decodeMarked_ok_iff input (some frame) i hcan g
  · have hrange' : t < interfaceUart ∨ t > interfaceEthernet := by omega
    simp only [frameDecode, hrange', if_true]
    constructor
    · intro h
      simp at h
    · rintro ⟨m, rfl, _⟩
      exact absurd m.interface.code_mem hrange

/-- For every interface value and every input the decoder returns, and a
rejecting call leaves the caller's frame alone. -/
theorem frameDecode_settles (frame : Frame) :
    Settles (frameDecode t (some input) n (some frame)) frame := by
  by_cases hrange : interfaceUart ≤ t ∧ t ≤ interfaceEthernet
  · obtain ⟨i, rfl⟩ := Interface.exists_code hrange
    have hrange' : ¬ (i.code < interfaceUart ∨ i.code > interfaceEthernet) := by omega
    simp only [frameDecode, hrange', if_false, Interface.code_eq_can_iff]
    by_cases hcan : i = .can
    · subst hcan
      rw [if_pos rfl]
      by_cases hn : n < 7
      · rw [decodeCan, if_pos hn]
        exact Settles.of_eq rfl
      obtain ⟨a, b, c, d, e, rest, hinput⟩ := split5 input.toList (by simp; omega)
      rw [decodeCan_of_header _ input _ a b c d e rest hinput hn]
      split
      · exact Settles.of_eq rfl
      · exact decodeTail_settles _ input _ _ [a, b, c, d, e] rest hinput
          (by
            rw [BitVec.toNat_setWidth_of_le (by omega)]
            exact Nat.le_of_lt e.isLt) frame
    · rw [if_neg hcan]
      by_cases hn : n < 10
      · rw [decodeMarked, if_pos hn]
        exact Settles.of_eq rfl
      obtain ⟨a, b, c, d, e, f, l, k, rest, hinput⟩ := split8 input.toList (by simp; omega)
      rw [decodeMarked_of_header input _ i hcan a b c d e f l k rest hinput hn]
      split
      · exact Settles.of_eq rfl
      split
      · exact Settles.of_eq rfl
      · rename_i hlimit
        rw [BitVec.not_lt, BitVec.le_def, payloadLimit_code] at hlimit
        exact decodeTail_settles _ input _ _ [a, b, c, d, e, f, l, k] rest hinput
          (hlimit.trans i.limit_le) frame
  · have hrange' : t < interfaceUart ∨ t > interfaceEthernet := by omega
    simp only [frameDecode, hrange', if_true]
    exact Settles.of_eq rfl

end Decode

section Trailer

/-- What a decoder answers to a body with any two bytes behind it. Either all of
them get one refusal, or one is accepted and the others fail the checksum. -/
def ComparesTrailer (decode : ∀ n, Vector U8 n → Frame → Access (Status × Ptr Frame))
    (body : List U8) : Prop :=
  (∃ status, status ≠ .ok ∧ status ≠ .errChecksum ∧
    ∀ n (w : Vector U8 n) high low, w.toList = body ++ [high, low] → ∀ kept,
      decode n w kept = .ok (status, some kept)) ∨
  ∃ g, ∀ n (w : Vector U8 n) high low, w.toList = body ++ [high, low] → ∀ kept,
    decode n w kept =
      if high ++ low = crcOf body then .ok (.ok, some g) else .ok (.errChecksum, some kept)

theorem ComparesTrailer.of_refusal
    {decode : ∀ n, Vector U8 n → Frame → Access (Status × Ptr Frame)} {body : List U8}
    (status : Status) (hok : status ≠ .ok) (hchecksum : status ≠ .errChecksum)
    (h : ∀ n (w : Vector U8 n) high low, w.toList = body ++ [high, low] → ∀ kept,
      decode n w kept = .ok (status, some kept)) :
    ComparesTrailer decode body := .inl ⟨status, hok, hchecksum, h⟩

theorem ComparesTrailer.congr
    {decode other : ∀ n, Vector U8 n → Frame → Access (Status × Ptr Frame)} {body : List U8}
    (h : ComparesTrailer other body)
    (hsame : ∀ n (w : Vector U8 n) high low, w.toList = body ++ [high, low] → ∀ kept,
      decode n w kept = other n w kept) :
    ComparesTrailer decode body := by
  rcases h with ⟨status, hok, hchecksum, hother⟩ | ⟨g, hother⟩
  · refine .of_refusal status hok hchecksum ?_
    intro n w high low hw kept
    rw [hsame n w high low hw kept, hother n w high low hw kept]
  · refine .inr ⟨g, ?_⟩
    intro n w high low hw kept
    rw [hsame n w high low hw kept, hother n w high low hw kept]

theorem length_of_trailer {body : List U8} {n : Nat} {w : Vector U8 n} {high low : U8}
    (hw : w.toList = body ++ [high, low]) : n = body.length + 2 := by
  have htotal := congrArg List.length hw
  rwa [Vector.length_toList, List.length_append] at htotal

theorem decodeTail_trailer (t : Int) (decoded : Frame) (payloadLength : U16)
    (header payload : List U8) (hmax : payloadLength.toNat ≤ maxPayload) :
    ComparesTrailer
      (fun n w kept => decodeTail t w n (some kept) decoded payloadLength header.length)
      (header ++ payload) := by
  by_cases hlength : payloadLength.toNat = payload.length
  · right
    refine ⟨acceptedFrame t decoded payloadLength payload, ?_⟩
    intro n w high low hw kept
    rw [List.append_assoc] at hw
    dsimp only
    rw [decodeTail_of_split t w (some kept) decoded payloadLength header payload high low hw
      hlength (hlength ▸ hmax)]
    exact ite_not _ _ _
  · apply ComparesTrailer.of_refusal .errLength (by simp) (by simp)
    intro n w high low hw kept
    have hn := length_of_trailer hw
    rw [List.length_append] at hn
    exact decodeTail_of_length_ne t w (some kept) decoded payloadLength header.length (by omega)

theorem decodeCan_trailer (body : List U8) :
    ComparesTrailer (fun n w kept => decodeCan interfaceCan w n (some kept)) body := by
  by_cases hshort : body.length < 5
  · apply ComparesTrailer.of_refusal .errLength (by simp) (by simp)
    intro n w high low hw kept
    have hn := length_of_trailer hw
    exact if_pos (by omega)
  obtain ⟨a, b, c, d, e, payload, rfl⟩ := split5 body (Nat.le_of_not_lt hshort)
  have hmax : (e.setWidth 16 : U16).toNat ≤ maxPayload := by
    rw [BitVec.toNat_setWidth_of_le (by omega)]
    exact Nat.le_of_lt e.isLt
  by_cases hrange : a ++ b > (0x07ff : U16) ∨ (e.setWidth 16 : U16) > 8
  · apply ComparesTrailer.of_refusal .errRange (by simp) (by simp)
    intro n w high low hw kept
    have hn := length_of_trailer hw
    rw [List.append_assoc] at hw
    exact (decodeCan_of_header interfaceCan w (some kept) a b c d e _ hw (by omega)).trans
      (if_pos hrange)
  · apply (decodeTail_trailer interfaceCan _ _ [a, b, c, d, e] payload hmax).congr
    intro n w high low hw kept
    have hn := length_of_trailer hw
    rw [List.append_assoc] at hw
    exact (decodeCan_of_header interfaceCan w (some kept) a b c d e _ hw (by omega)).trans
      (if_neg hrange)

theorem decodeMarked_trailer {i : Interface} (hcan : i ≠ .can) (body : List U8) :
    ComparesTrailer (fun n w kept => decodeMarked i.code w n (some kept)) body := by
  by_cases hshort : body.length < 8
  · apply ComparesTrailer.of_refusal .errLength (by simp) (by simp)
    intro n w high low hw kept
    have hn := length_of_trailer hw
    exact if_pos (by omega)
  obtain ⟨a, b, c, d, e, f, l, k, payload, rfl⟩ := split8 body (Nat.le_of_not_lt hshort)
  have hheader : ∀ n (w : Vector U8 n) high low,
      w.toList = [a, b, c, d, e, f, l, k] ++ payload ++ [high, low] → ∀ kept,
      decodeMarked i.code w n (some kept) =
        if i.marker ≠ [a, b] then .ok (.errRange, some kept)
        else if l ++ k > payloadLimit i.code then .ok (.errLength, some kept)
        else
          decodeTail i.code w n (some kept)
            { zeroFrame with messageId := c ++ d, sequence := e ++ f } (l ++ k) 8 := by
    intro n w high low hw kept
    have hn := length_of_trailer hw
    rw [List.append_assoc] at hw
    exact decodeMarked_of_header w (some kept) i hcan a b c d e f l k _ hw (by simp at hn; omega)
  by_cases hmarker : i.marker ≠ [a, b]
  · apply ComparesTrailer.of_refusal .errRange (by simp) (by simp)
    intro n w high low hw kept
    exact (hheader n w high low hw kept).trans (if_pos hmarker)
  by_cases hlimit : l ++ k > payloadLimit i.code
  · apply ComparesTrailer.of_refusal .errLength (by simp) (by simp)
    intro n w high low hw kept
    exact (hheader n w high low hw kept).trans ((if_neg hmarker).trans (if_pos hlimit))
  · have hmax : (l ++ k).toNat ≤ maxPayload := by
      rw [BitVec.not_lt, BitVec.le_def, payloadLimit_code] at hlimit
      exact hlimit.trans i.limit_le
    apply (decodeTail_trailer i.code _ _ [a, b, c, d, e, f, l, k] payload hmax).congr
    intro n w high low hw kept
    exact (hheader n w high low hw kept).trans ((if_neg hmarker).trans (if_neg hlimit))

end Trailer

end Esqh
