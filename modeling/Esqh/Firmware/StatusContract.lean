import Esqh.Firmware.Calls
import Esqh.Firmware.WireFormat

/-!
What the status of a codec call says about the caller's memory, and about which
frames the codec and the controller's intake agree.
-/

namespace Esqh

open Memory

section Front

variable {n : Nat} (input : Vector U8 n) {k : Nat} (hk : k ≤ n)

theorem read_front (i : Nat) (hi : i < k) : read (front input k hk) i = read input i := by
  have hsame : (front input k hk)[i] = input[i] := by
    rw [front, Vector.getElem_cast, Vector.getElem_take]
  rw [read_of_lt _ hi, read_of_lt _ (by omega), hsame]

theorem readU16_front (offset : Nat) (h : offset + 1 < k) :
    readU16 (front input k hk) offset = readU16 input offset := by
  rw [readU16, readU16, read_front input hk _ (by omega), read_front input hk _ h]

theorem crc16_front (length : Nat) (h : length ≤ k) :
    crc16 (some (front input k hk)) length = crc16 (some input) length := by
  rw [crc16_eq _ _ h, crc16_eq _ _ (by omega), toList_front, List.take_take, Nat.min_eq_left h]

theorem copyBytes_front (destination : Vector U8 maxPayload) (offset length : Nat)
    (hmax : length ≤ maxPayload) (h : offset + length ≤ k) :
    copyBytes destination 0 (front input k hk) offset length =
      copyBytes destination 0 input offset length := by
  rw [copyBytes, copyBytes, copy_eq_splice _ _ _ _ _ (by omega) h,
    copy_eq_splice _ _ _ _ _ (by omega) (by omega), toList_front, List.drop_take, List.take_take,
    Nat.min_eq_left (by omega)]

theorem decodeTail_front (t : Int) (frame : Ptr Frame) (decoded : Frame) (payloadLength : U16)
    (headerLength : Nat) (hmax : payloadLength.toNat ≤ maxPayload) :
    decodeTail t (front input k hk) k frame decoded payloadLength headerLength =
      decodeTail t input k frame decoded payloadLength headerLength := by
  simp only [decodeTail]
  by_cases hlength : k = headerLength + payloadLength.toNat + 2
  · rw [readU16_front input hk _ (by omega), crc16_front input hk _ (by omega),
      copyBytes_front input hk _ _ _ hmax (by omega)]
  · rw [if_pos hlength, if_pos hlength]

theorem decodeCan_front (t : Int) (frame : Ptr Frame) :
    decodeCan t (front input k hk) k frame = decodeCan t input k frame := by
  by_cases hk7 : k < 7
  · rw [decodeCan, decodeCan, if_pos hk7, if_pos hk7]
  · rw [decodeCan, decodeCan, read_front input hk _ (by omega), readU16_front input hk _ (by omega),
      readU16_front input hk _ (by omega)]
    have htail (decoded : Frame) (dlc : U8) :
        decodeTail t (front input k hk) k frame decoded (dlc.setWidth 16) 5 =
          decodeTail t input k frame decoded (dlc.setWidth 16) 5 := by
      apply decodeTail_front
      rw [BitVec.toNat_setWidth_of_le (by omega)]
      exact dlc.isLt.le
    simp only [htail]

theorem payloadLimit_le (t : Int) : (payloadLimit t).toNat ≤ maxPayload := by
  unfold payloadLimit
  split_ifs <;> decide

theorem decodeMarked_front (t : Int) (frame : Ptr Frame) :
    decodeMarked t (front input k hk) k frame = decodeMarked t input k frame := by
  by_cases hk10 : k < 10
  · rw [decodeMarked, decodeMarked, if_pos hk10, if_pos hk10]
  · rw [decodeMarked, decodeMarked, read_front input hk _ (by omega),
      read_front input hk _ (by omega), readU16_front input hk _ (by omega),
      readU16_front input hk _ (by omega), readU16_front input hk _ (by omega)]
    have htail (decoded : Frame) (payloadLength : U16) :
        (if payloadLength > payloadLimit t then .ok (.errLength, frame)
          else decodeTail t (front input k hk) k frame decoded payloadLength 8) =
        (if payloadLength > payloadLimit t then .ok (.errLength, frame)
          else decodeTail t input k frame decoded payloadLength 8 : Access _) := by
      by_cases hlimit : payloadLength > payloadLimit t
      · rw [if_pos hlimit, if_pos hlimit]
      · rw [decodeTail_front]
        exact (BitVec.le_def.mp (BitVec.not_lt.mp hlimit)).trans (payloadLimit_le t)
    simp only [htail]

/-- The decoder reads nothing of the buffer behind the input length. -/
theorem frameDecode_front (t : Int) (frame : Ptr Frame) :
    frameDecode t (some (front input k hk)) k frame = frameDecode t (some input) k frame := by
  cases frame with
  | none => rfl
  | some frame =>
      simp only [frameDecode]
      rw [decodeCan_front, decodeMarked_front]

end Front

/-- An encoder call returns. If it does not accept, it leaves the caller's
memory alone; if it accepts, it has written a front part of the output, within
the capacity, and that part's length. -/
def EncodeAtomic {n : Nat} (answer : Access (Status × Ptr (Vector U8 n) × Ptr Nat))
    (output : Ptr (Vector U8 n)) (capacity : Nat) (written : Ptr Nat) : Prop :=
  ∃ status output' written',
    answer = .ok (status, output', written') ∧
    (status ≠ .ok → output' = output ∧ written' = written) ∧
    (status = .ok → ∃ before after k,
      output = some before ∧ output' = some after ∧ written' = some k ∧ k ≤ capacity ∧
        ∀ i (hi : i < n), k ≤ i → after[i] = before[i])

/-- A decoder call returns, and leaves the caller's frame alone if it does not
accept. -/
def DecodeAtomic (answer : Access (Status × Ptr Frame)) (frame : Ptr Frame) : Prop :=
  ∃ status frame', answer = .ok (status, frame') ∧ (status ≠ .ok → frame' = frame)

theorem EncodeAtomic.of_rejects {n : Nat} {answer : Access (Status × Ptr (Vector U8 n) × Ptr Nat)}
    {output : Ptr (Vector U8 n)} {capacity : Nat} {written : Ptr Nat} {status : Status}
    (hstatus : status ≠ .ok) (h : answer = .ok (status, output, written)) :
    EncodeAtomic answer output capacity written :=
  ⟨status, output, written, h, fun _ => ⟨rfl, rfl⟩, fun hok => absurd hok hstatus⟩

/-- Codec calls are atomic for every frame, interface value and buffer, null
pointers included. A capacity or an input length promises no more bytes than
the buffer has. -/
theorem codec_atomic :
    (∀ (n : Nat) (frame : Ptr Frame) (output : Ptr (Vector U8 n)) (capacity : Nat)
      (written : Ptr Nat), (output ≠ none → capacity ≤ n) →
      EncodeAtomic (frameEncode frame output capacity written) output capacity written) ∧
    (∀ (n : Nat) (t : Int) (input : Ptr (Vector U8 n)) (length : Nat) (frame : Ptr Frame),
      (input ≠ none → length ≤ n) →
      DecodeAtomic (frameDecode t input length frame) frame) := by
  constructor
  · intro n frame output capacity written hbuffer
    have hargument : Status.errArgument ≠ .ok := by simp
    rcases frame with _ | f
    · exact .of_rejects hargument rfl
    rcases output with _ | before
    · exact .of_rejects hargument rfl
    rcases written with _ | old
    · exact .of_rejects hargument rfl
    rcases frameEncode_guards before f capacity old with ⟨hvalid, hfit⟩ | ⟨status, hstatus, h⟩
    · obtain ⟨m, hm⟩ := hvalid.exists_message
      rw [hm.wireSize_eq] at hfit
      have h := frameEncode_of_carries before hm capacity old hfit (hbuffer (by simp))
      refine ⟨_, _, _, h, by simp, fun _ => ⟨before, _, _, rfl, rfl, rfl, hfit, ?_⟩⟩
      intro i hi hbehind
      simp [getElem_splice, List.getElem?_eq_none hbehind]
    · exact .of_rejects hstatus h
  · intro n t input length frame hbuffer
    rcases input with _ | input
    · exact ⟨_, _, rfl, fun _ => rfl⟩
    rcases frame with _ | kept
    · exact ⟨_, _, rfl, fun _ => rfl⟩
    obtain ⟨status, frame', h, hkeep⟩ :=
      frameDecode_settles t (front input length (hbuffer (by simp))) kept
    rw [frameDecode_front] at h
    exact ⟨status, some frame', h, fun hstatus => congrArg some (hkeep hstatus)⟩

/-- A capacity too small for the frame leaves sixteen bytes and the length as
they were. -/
theorem codec_atomic_short :
    EncodeAtomic
      (frameEncode (some emptyCanFrame) (some (Vector.replicate 16 (0xee : U8))) 6 (some 99))
      (some (Vector.replicate 16 0xee)) 6 (some 99) :=
  codec_atomic.1 16 _ _ 6 _ (by decide)

/-! What the checksum's status says about the rest of the buffer. -/

theorem frameDecode_comparesTrailer (t : Int) (body : List U8) :
    ComparesTrailer (fun n w kept => frameDecode t (some w) n (some kept)) body := by
  by_cases hrange : interfaceUart ≤ t ∧ t ≤ interfaceEthernet
  · obtain ⟨i, rfl⟩ := Interface.exists_code hrange
    have hknown : ¬(i.code < interfaceUart ∨ i.code > interfaceEthernet) := by omega
    rcases eq_or_ne i .can with rfl | hcan
    · apply (decodeCan_trailer body).congr
      intro n w high low _ kept
      simp only [frameDecode, hknown, if_false, Interface.code_eq_can_iff, if_true]
      rfl
    · apply (decodeMarked_trailer hcan body).congr
      intro n w high low _ kept
      simp only [frameDecode, hknown, if_false, Interface.code_eq_can_iff, hcan]
  · apply ComparesTrailer.of_refusal .errRange (by simp) (by simp)
    intro n w high low _ kept
    exact if_pos (by omega)

/-- Of the 65536 buffers that only differ in the last two bytes, as any
interface, either all are refused for the same other reason, or exactly one is
accepted and the others fail the checksum: the rest is the body of a frame. -/
theorem frameDecode_trailer (t : Int) (body : List U8) :
    (∃ status, status ≠ .ok ∧ status ≠ .errChecksum ∧
      ∀ n (w : Vector U8 n) high low, w.toList = body ++ [high, low] → ∀ kept,
        frameDecode t (some w) n (some kept) = .ok (status, some kept)) ∨
    ∃ g : Frame, g.Valid ∧ g.interfaceType = t ∧
      ∀ n (w : Vector U8 n) high low, w.toList = body ++ [high, low] → ∀ kept,
        frameDecode t (some w) n (some kept) =
          if high ++ low = crcOf body then .ok (.ok, some g)
          else .ok (.errChecksum, some kept) := by
  rcases frameDecode_comparesTrailer t body with hrefused | ⟨g, hchecked⟩
  · exact .inl hrefused
  · right
    have hcrc := hchecked _ ⟨(body ++ be16 (crcOf body)).toArray, rfl⟩ _ _ rfl zeroFrame
    rw [if_pos (be16_append (crcOf body))] at hcrc
    obtain ⟨m, hinterface, _, hframe⟩ := (frameDecode_ok_iff _ _ _ _).mp hcrc
    refine ⟨g, ?_, ?_, hchecked⟩
    · rw [hframe]
      exact m.frame_carries.valid
    · rw [hframe, hinterface]
      rfl

/-! Which frames the three validators accept. -/

section Validators

variable (f : Frame)

theorem exists_frameEncode_ok_iff :
    (∃ (capacity : Nat) (output : Vector U8 capacity) (written : Nat) (output' : _) (written' : _),
      frameEncode (some f) (some output) capacity (some written) =
        .ok (.ok, output', written')) ↔ f.Valid := by
  constructor
  · rintro ⟨_, output, _, _, _, h⟩
    obtain ⟨m, hm, _⟩ := carries_of_frameEncode_ok output h
    exact hm.valid
  · intro hvalid
    obtain ⟨m, hm⟩ := hvalid.exists_message
    exact ⟨m.wire.length, Vector.replicate _ 0, 0, _, _,
      frameEncode_of_carries _ hm _ 0 (le_refl _) (le_refl _)⟩

theorem exists_frameDecode_ok_iff :
    (∃ (n : Nat) (w : Vector U8 n) (destination g : Frame),
      frameDecode f.interfaceType (some w) n (some destination) = .ok (.ok, some g) ∧
        f.SameContent g) ↔ f.Valid := by
  constructor
  · rintro ⟨_, w, destination, g, h, hsame⟩
    obtain ⟨m, _, _, rfl⟩ := (frameDecode_ok_iff _ w destination g).mp h
    exact hsame.valid m.frame_carries.valid
  · intro hvalid
    obtain ⟨m, hm⟩ := hvalid.exists_message
    let w : Vector U8 m.wire.length := ⟨m.wire.toArray, by simp⟩
    have hwire : w.toList = m.wire := by simp [w]
    exact ⟨_, w, zeroFrame, m.frame,
      (frameDecode_ok_iff _ w zeroFrame m.frame).mpr ⟨m, hm.interfaceType, hwire, rfl⟩,
      hm.sameContent m.frame_carries⟩

/-- With all four interfaces enabled the configuration admits the encoder's
frames. -/
theorem admits_iff_valid (config : Config)
    (henabled : config.enabledInterfaceMask &&& 0x0f = 0x0f) : config.Admits f ↔ f.Valid := by
  have hbit : (interfaceUart ≤ f.interfaceType ∧ f.interfaceType ≤ interfaceEthernet) →
      config.enabledInterfaceMask &&& enabledBit f.interfaceType ≠ 0 := by
    intro hrange hzero
    obtain ⟨i, hi⟩ := Interface.exists_code hrange
    have hmask : enabledBit i.code = 0x0f &&& enabledBit i.code := by cases i <;> decide
    have hnonzero : 0x0f &&& enabledBit i.code ≠ 0 := by cases i <;> decide
    rw [hi, hmask, ← BitVec.and_assoc, henabled] at hzero
    exact hnonzero hzero
  constructor
  · rintro ⟨hrange, hlimit, hid, _⟩
    exact ⟨hrange, hlimit, hid⟩
  · rintro ⟨hrange, hlimit, hid⟩
    exact ⟨hrange, hlimit, hid, hbit hrange⟩

theorem receive_ok_iff (c : Controller) (hspace : c.queue.count.toNat < frameQueueCapacity) :
    (receive c (some f)).1 = .ok ↔ c.config.Admits f := by
  by_cases hadmits : c.config.Admits f
  · rw [receive_of_admits c f hadmits, if_neg (by omega)]
    exact iff_of_true rfl hadmits
  · obtain ⟨status, hstatus, h⟩ := receive_of_not_admits c f hadmits
    rw [h]
    apply iff_of_false _ hadmits
    rcases hstatus with rfl | rfl <;> simp

/-- The intake of a controller that has every interface enabled and room in its
queue accepts a frame exactly if the encoder does for some capacity, and
exactly if the decoder returns the frame's content for some buffer. -/
theorem validators_agree (c : Controller)
    (henabled : c.config.enabledInterfaceMask &&& 0x0f = 0x0f)
    (hspace : c.queue.count.toNat < frameQueueCapacity) :
    ((receive c (some f)).1 = .ok ↔
      ∃ (capacity : Nat) (output : Vector U8 capacity) (written : Nat) (output' : _) (written' : _),
        frameEncode (some f) (some output) capacity (some written) =
          .ok (.ok, output', written')) ∧
    ((receive c (some f)).1 = .ok ↔
      ∃ (n : Nat) (w : Vector U8 n) (destination g : Frame),
        frameDecode f.interfaceType (some w) n (some destination) = .ok (.ok, some g) ∧
          f.SameContent g) := by
  rw [receive_ok_iff f c hspace, admits_iff_valid f c.config henabled, exists_frameEncode_ok_iff,
    exists_frameDecode_ok_iff]
  exact ⟨Iff.rfl, Iff.rfl⟩

/-- A frame of interface value five passes none of them, without payload too. -/
theorem validators_agree_unknown :
    (receive (controllerInit zeroController (some defaultConfig))
        (some { zeroFrame with interfaceType := 5 })).1 ≠ .ok ∧
      ¬∃ (capacity : Nat) (output : Vector U8 capacity) (written : Nat) (output' : _)
        (written' : _),
        frameEncode (some { zeroFrame with interfaceType := 5 }) (some output) capacity
          (some written) = .ok (.ok, output', written') := by
  have hreceive : (receive (controllerInit zeroController (some defaultConfig))
      (some { zeroFrame with interfaceType := 5 })).1 ≠ .ok := by decide
  exact ⟨hreceive, fun hencode => hreceive
    ((validators_agree _ (controllerInit zeroController (some defaultConfig)) (by decide)
      (by decide)).1.mpr hencode)⟩

/-! The size query against the encoder. -/

/-- The encoder fails for every capacity, whatever the buffer. -/
def EncoderRefuses : Prop :=
  ∀ (n : Nat) (output : Vector U8 n) (capacity written : Nat), capacity ≤ n →
    ∀ output' written', frameEncode (some f) (some output) capacity (some written) ≠
      .ok (.ok, output', written')

/-- What the encoder checks and the size query does not. -/
def Encodable : Prop :=
  (interfaceUart ≤ f.interfaceType ∧ f.interfaceType ≤ interfaceEthernet) ∧
    (f.interfaceType = interfaceCan → f.messageId ≤ 0x07ff)

theorem wireSize_eq_zero_iff :
    wireSize (some f) = 0 ↔ payloadLimit f.interfaceType < f.payloadLength := by
  rw [wireSize]
  split_ifs with hlimit hcan
  · exact iff_of_true rfl hlimit
  · exact iff_of_false not_false hlimit
  · exact iff_of_false not_false hlimit

/-- A frame is valid if it passes the encoder's own checks and has a size. -/
theorem valid_iff_encodable : f.Valid ↔ Encodable f ∧ wireSize (some f) ≠ 0 := by
  rw [Ne, wireSize_eq_zero_iff, BitVec.not_lt, Frame.Valid, Encodable]
  tauto

/-- The encoder accepts exactly the valid frames that fit the capacity, and
reports their size. -/
theorem frameEncode_ok_iff {n : Nat} (output : Vector U8 n) (capacity written : Nat)
    (hbuffer : capacity ≤ n) :
    ((∃ output' written', frameEncode (some f) (some output) capacity (some written) =
        .ok (.ok, output', written')) ↔ f.Valid ∧ wireSize (some f) ≤ capacity) ∧
    (∀ output' written', frameEncode (some f) (some output) capacity (some written) =
        .ok (.ok, output', written') → written' = some (wireSize (some f))) := by
  rcases frameEncode_guards output f capacity written with ⟨hvalid, hfit⟩ | ⟨status, hstatus, h⟩
  · obtain ⟨m, hm⟩ := hvalid.exists_message
    have hsize := hm.wireSize_eq
    have h := frameEncode_of_carries output hm capacity written (hsize ▸ hfit) hbuffer
    refine ⟨iff_of_true ⟨_, _, h⟩ ⟨hvalid, hfit⟩, ?_⟩
    intro output' written' h'
    rw [h] at h'
    cases h'
    rw [hsize]
  · have hno : ∀ output' written', frameEncode (some f) (some output) capacity (some written) ≠
        .ok (.ok, output', written') := by
      intro output' written' h'
      rw [h] at h'
      cases h'
      exact hstatus rfl
    constructor
    · apply iff_of_false
      · rintro ⟨output', written', h'⟩
        exact hno output' written' h'
      · rintro ⟨hvalid, hfit⟩
        obtain ⟨m, hm⟩ := hvalid.exists_message
        exact hno _ _ (frameEncode_of_carries output hm capacity written (hm.wireSize_eq ▸ hfit)
          hbuffer)
    · intro output' written' h'
      exact absurd h' (hno output' written')

theorem encoderRefuses_of_not_valid (hinvalid : ¬f.Valid) : EncoderRefuses f := by
  intro n output capacity written hbuffer output' written' h
  exact hinvalid ((frameEncode_ok_iff f output capacity written hbuffer).1.mp ⟨_, _, h⟩).1

/-- The size query knows the payload limits, the encoder also the interfaces and
the CAN identifiers. A frame without a size is never encoded; a frame of a known
interface, with a CAN identifier in range, has no size exactly if it is never
encoded, and is otherwise encoded exactly into its size or more; any other frame
is never encoded. -/
theorem size_query_agrees :
    (Encodable f → (wireSize (some f) = 0 ↔ EncoderRefuses f)) ∧
    (¬Encodable f → EncoderRefuses f) ∧
    (wireSize (some f) = 0 → EncoderRefuses f) ∧
    (Encodable f → wireSize (some f) ≠ 0 →
      ∀ (n : Nat) (output : Vector U8 n) (capacity written : Nat), capacity ≤ n →
        ((∃ output' written', frameEncode (some f) (some output) capacity (some written) =
            .ok (.ok, output', written')) ↔ wireSize (some f) ≤ capacity) ∧
        ∀ output' written', frameEncode (some f) (some output) capacity (some written) =
          .ok (.ok, output', written') → written' = some (wireSize (some f))) := by
  have hrefuses : ¬f.Valid → EncoderRefuses f := encoderRefuses_of_not_valid f
  have haccepts : f.Valid → ¬EncoderRefuses f := by
    intro hvalid hall
    obtain ⟨output', written', h⟩ :=
      (frameEncode_ok_iff f (Vector.replicate (wireSize (some f)) 0) _ 0 (Nat.le_refl _)).1.mpr
        ⟨hvalid, Nat.le_refl _⟩
    exact hall _ _ _ _ (Nat.le_refl _) output' written' h
  have hvalid := valid_iff_encodable f
  refine ⟨?_, ?_, ?_, ?_⟩
  · intro hencodable
    constructor
    · intro hzero
      exact hrefuses (fun h => (hvalid.mp h).2 hzero)
    · intro hall
      by_contra hsize
      exact haccepts (hvalid.mpr ⟨hencodable, hsize⟩) hall
  · intro hencodable
    exact hrefuses (fun h => hencodable (hvalid.mp h).1)
  · intro hzero
    exact hrefuses (fun h => (hvalid.mp h).2 hzero)
  · intro hencodable hsize n output capacity written hbuffer
    obtain ⟨hok, hwritten⟩ := frameEncode_ok_iff f output capacity written hbuffer
    refine ⟨hok.trans ?_, hwritten⟩
    exact and_iff_right (hvalid.mpr ⟨hencodable, hsize⟩)

end Validators

/-- An empty CAN frame has a size and is encoded. -/
theorem size_query_agrees_can : ¬EncoderRefuses emptyCanFrame := by
  intro hall
  have hencodable : Encodable emptyCanFrame := ⟨by decide, by decide⟩
  exact absurd (((size_query_agrees emptyCanFrame).1 hencodable).mpr hall) (by decide)

/-- An empty frame of interface value five and a CAN frame with a twelve-bit
identifier have a size and are never encoded. -/
theorem not_size_query_agrees :
    ¬(∀ f : Frame, wireSize (some f) = 0 ↔ EncoderRefuses f) ∧
    (wireSize (some { zeroFrame with interfaceType := 5 }) = 10 ∧
      EncoderRefuses { zeroFrame with interfaceType := 5 }) ∧
    (wireSize (some { emptyCanFrame with messageId := 0x800 }) = 7 ∧
      EncoderRefuses { emptyCanFrame with messageId := 0x800 }) := by
  have hunknown : EncoderRefuses { zeroFrame with interfaceType := 5 } :=
    encoderRefuses_of_not_valid _ (by decide)
  refine ⟨?_, ⟨by decide, hunknown⟩, by decide, encoderRefuses_of_not_valid _ (by decide)⟩
  intro h
  exact absurd ((h _).mpr hunknown) (by decide)

end Esqh
