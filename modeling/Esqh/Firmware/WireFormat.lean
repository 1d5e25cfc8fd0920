import Esqh.Firmware.Codec

/-!
The frame format as a whole: decoding undoes encoding, the decoder accepts the
encoder's image and nothing else, and an error burst of at most sixteen bits
never passes the decoder.
-/

namespace Esqh

open Memory ShiftRegister

variable {n : Nat}

/-- Every frame within its interface's limits is encoded into any large enough
buffer, and decoding what was written returns its fields, its payload and zeros
behind the payload. -/
theorem frameDecode_frameEncode (f : Frame) (hf : f.Valid) (output : Vector U8 n)
    (capacity written : Nat) (hcapacity : wireSize (some f) ≤ capacity) (hbuffer : capacity ≤ n)
    (destination : Frame) :
    ∃ output' g,
      frameEncode (some f) (some output) capacity (some written) =
        .ok (.ok, some output', some (wireSize (some f))) ∧
      frameDecode f.interfaceType
        (some (front output' (wireSize (some f)) (hcapacity.trans hbuffer)))
        (wireSize (some f)) (some destination) = .ok (.ok, some g) ∧
      g.interfaceType = f.interfaceType ∧ g.messageId = f.messageId ∧
      g.sequence = f.sequence ∧ g.payloadLength = f.payloadLength ∧
      ∀ i (hi : i < maxPayload),
        g.payload[i] = if i < f.payloadLength.toNat then f.payload[i] else 0 := by
  obtain ⟨m, hm⟩ := hf.exists_message
  have hsize := hm.wireSize_eq
  have hfit : m.wire.length ≤ n := hsize ▸ hcapacity.trans hbuffer
  refine ⟨splice output 0 m.wire, m.frame, ?_, ?_, hm.interfaceType.symm, hm.messageId.symm,
    hm.sequence.symm, ?_, ?_⟩
  · rw [hsize]
    exact frameEncode_of_carries output hm capacity written (hsize ▸ hcapacity) hbuffer
  · apply (frameDecode_ok_iff _ _ destination m.frame).mpr
    refine ⟨m, hm.interfaceType, ?_, rfl⟩
    rw [toList_front, hsize, take_splice_zero output m.wire hfit]
  · apply BitVec.eq_of_toNat_eq
    rw [hm.payloadLength]
    exact m.toNat_payload_length
  · intro i hi
    have hpayload : m.payload[i]? = if i < m.payload.length then some f.payload[i] else none := by
      conv_lhs => rw [← hm.payload]
      rw [List.getElem?_take]
      simp [hi]
    rw [hm.payloadLength]
    simp only [Message.frame, getElem_splice, Nat.zero_le, if_true, Nat.sub_zero,
      List.getD_eq_getElem?_getD, hpayload]
    by_cases hused : i < m.payload.length
    · simp [hused]
    · simp [hused, zeroFrame]

def emptyCanFrame : Frame :=
  { zeroFrame with interfaceType := interfaceCan, messageId := 0x321, sequence := 7 }

/-- A CAN frame without payload, through a buffer larger than it needs. -/
theorem frameDecode_frameEncode_can :
    ∃ output' g,
      frameEncode (some emptyCanFrame) (some (Vector.replicate 16 0)) 16 (some 0) =
        .ok (.ok, some output', some 7) ∧
      frameDecode interfaceCan (some (front output' 7 (by decide))) 7 (some zeroFrame) =
        .ok (.ok, some g) ∧
      g.messageId = 0x321 := by
  obtain ⟨output', g, hencode, hdecode, _, hid, _⟩ :=
    frameDecode_frameEncode emptyCanFrame (by decide) (Vector.replicate 16 0) 16 0 (by decide)
      (by decide) zeroFrame
  exact ⟨output', g, hencode, hdecode, hid⟩

/-- What the decoder accepts as type `t` is the encoding of a valid frame of
that type, byte for byte; conversely every such encoding is accepted; and no
two buffers decode to one frame. -/
theorem frameDecode_canonical (t : Int) (w : Vector U8 n) :
    (∀ destination g, frameDecode t (some w) n (some destination) = .ok (.ok, some g) →
      (interfaceUart ≤ t ∧ t ≤ interfaceEthernet) ∧ g.interfaceType = t ∧ g.Valid ∧
        ∀ (output : Vector U8 n) (written : Nat),
          frameEncode (some g) (some output) n (some written) = .ok (.ok, some w, some n)) ∧
    ((∃ destination g, frameDecode t (some w) n (some destination) = .ok (.ok, some g)) ↔
      ∃ f : Frame, f.Valid ∧ f.interfaceType = t ∧ ∃ (output : Vector U8 n) (written : Nat),
        frameEncode (some f) (some output) n (some written) = .ok (.ok, some w, some n)) ∧
    (∀ {k : Nat} (w' : Vector U8 k) destination destination' g,
      frameDecode t (some w) n (some destination) = .ok (.ok, some g) →
      frameDecode t (some w') k (some destination') = .ok (.ok, some g) →
      w.toList = w'.toList) := by
  have hencode (m : Message) (hwire : w.toList = m.wire) (f : Frame) (hf : f.Carries m)
      (output : Vector U8 n) (written : Nat) :
      frameEncode (some f) (some output) n (some written) = .ok (.ok, some w, some n) := by
    have hlength : m.wire.length = n := by rw [← hwire, Vector.length_toList]
    have hsplice : splice output 0 m.wire = w := by
      apply Vector.toList_inj.mp
      have htake := take_splice_zero output m.wire hlength.le
      rw [hlength, List.take_of_length_le (by simp)] at htake
      rw [htake, hwire]
    rw [frameEncode_of_carries output hf n written hlength.le (le_refl n), hsplice, hlength]
  refine ⟨?_, ?_, ?_⟩
  · intro destination g h
    obtain ⟨m, rfl, hwire, rfl⟩ := (frameDecode_ok_iff t w destination g).mp h
    exact ⟨m.interface.code_mem, rfl, m.frame_carries.valid,
      hencode m hwire m.frame m.frame_carries⟩
  · constructor
    · rintro ⟨destination, g, h⟩
      obtain ⟨m, rfl, hwire, rfl⟩ := (frameDecode_ok_iff t w destination g).mp h
      exact ⟨m.frame, m.frame_carries.valid, rfl, w, 0,
        hencode m hwire m.frame m.frame_carries w 0⟩
    · rintro ⟨f, hf, rfl, output, written, h⟩
      obtain ⟨m, hm, hlength⟩ := carries_of_frameEncode_ok output h
      rw [frameEncode_of_carries output hm n written hlength (le_refl n)] at h
      simp only [Except.ok.injEq, Prod.mk.injEq, Option.some.injEq, true_and] at h
      obtain ⟨hw, hn⟩ := h
      refine ⟨zeroFrame, m.frame, (frameDecode_ok_iff _ _ _ _).mpr ⟨m, hm.interfaceType, ?_, rfl⟩⟩
      have htake := take_splice_zero output m.wire hn.le
      rw [hw, hn, List.take_of_length_le (by simp)] at htake
      exact htake
  · intro k w' destination destination' g h h'
    obtain ⟨m, _, hwire, hg⟩ := (frameDecode_ok_iff t w destination g).mp h
    obtain ⟨m', _, hwire', hg'⟩ := (frameDecode_ok_iff t w' destination' g).mp h'
    have hm : m = m' := Message.frame_injective (hg.symm.trans hg')
    rw [hwire, hwire', hm]

/-- The seven bytes of a CAN frame without payload, accepted and encoded again. -/
theorem frameDecode_canonical_can :
    frameEncode (some emptyCanFrame) (some (Vector.replicate 7 0)) 7 (some 0) =
      .ok (.ok, some #v[0x03, 0x21, 0x00, 0x07, 0x00, 0x27, 0xb3], some 7) := by
  let m : Message := ⟨.can, 0x321, 7, [], by decide, by decide⟩
  have hframe : emptyCanFrame = m.frame := by
    simp [m, emptyCanFrame, zeroFrame, Message.frame, Interface.code]
  have hdecode : frameDecode interfaceCan
      (some #v[0x03, 0x21, 0x00, 0x07, 0x00, 0x27, 0xb3]) 7 (some zeroFrame) =
        .ok (.ok, some emptyCanFrame) :=
    (frameDecode_ok_iff _ _ _ _).mpr ⟨m, rfl, by decide +kernel, hframe⟩
  exact ((frameDecode_canonical interfaceCan _).1 zeroFrame emptyCanFrame hdecode).2.2.2
    (Vector.replicate 7 0) 0

section Errors

variable {k : Nat}

/-- What an accepting encoder call leaves at the front of the buffer is the
encoding of a message that its frame carries. -/
theorem exists_wire_of_frameEncode {f : Frame} {output output' : Vector U8 n}
    {capacity written : Nat} (hbuffer : capacity ≤ n)
    (hencode : frameEncode (some f) (some output) capacity (some written) =
      .ok (.ok, some output', some k)) :
    ∃ m, f.Carries m ∧ output'.toList.take k = m.wire ∧ k = m.wire.length := by
  obtain ⟨m, hm, hlength⟩ := carries_of_frameEncode_ok output hencode
  rw [frameEncode_of_carries output hm capacity written hlength hbuffer] at hencode
  simp only [Except.ok.injEq, Prod.mk.injEq, Option.some.injEq, true_and] at hencode
  obtain ⟨rfl, rfl⟩ := hencode
  exact ⟨m, hm, take_splice_zero output m.wire (hlength.trans hbuffer), rfl⟩

/-- A buffer that is not an encoding is rejected. -/
theorem frameDecode_of_ne_wire (t : Int) (received : Vector U8 k)
    (hwire : ∀ m : Message, received.toList ≠ m.wire) (destination : Frame) :
    ∃ status, status ≠ .ok ∧
      frameDecode t (some received) k (some destination) = .ok (status, some destination) := by
  obtain ⟨status, frame, hanswer, hkeep⟩ := frameDecode_settles t received destination
  have hstatus : status ≠ .ok := by
    rintro rfl
    obtain ⟨m, _, heq, _⟩ := (frameDecode_ok_iff _ _ _ _).mp hanswer
    exact hwire m heq
  exact ⟨status, hstatus, by rw [hanswer, hkeep hstatus]⟩

/-- A buffer whose checksum, the received one included, is not zero is
rejected as every type. -/
theorem frameDecode_rejects (t : Int) (received : Vector U8 k)
    (hcrc : crcOf received.toList ≠ 0) (destination : Frame) :
    ∃ status, status ≠ .ok ∧
      frameDecode t (some received) k (some destination) = .ok (status, some destination) := by
  apply frameDecode_of_ne_wire
  intro m hwire
  rw [hwire, m.crcOf_wire] at hcrc
  exact hcrc rfl

end Errors

/-- A received buffer that differs from an encoding in at least one bit, and
only within sixteen consecutive bits, is rejected, and the destination frame is
kept. Both buffers, checksum included, would have checksum zero otherwise. -/
theorem frameDecode_rejects_burst (f : Frame) (output output' : Vector U8 n)
    (capacity written k : Nat) (hbuffer : capacity ≤ n)
    (hencode : frameEncode (some f) (some output) capacity (some written) =
      .ok (.ok, some output', some k))
    (received : Vector U8 k) (hne : received.toList ≠ output'.toList.take k)
    (hburst : DifferWithin 16 (wordBits (output'.toList.take k)) (wordBits received.toList))
    (destination : Frame) :
    ∃ status, status ≠ .ok ∧
      frameDecode f.interfaceType (some received) k (some destination) =
        .ok (status, some destination) := by
  obtain ⟨m, _, hwire, hk⟩ := exists_wire_of_frameEncode hbuffer hencode
  rw [hwire] at hne hburst
  have hcrc := crcOf_ne_of_differWithin _ _ (by simp [hk]) hne.symm hburst
  rw [m.crcOf_wire] at hcrc
  exact frameDecode_rejects f.interfaceType received hcrc.symm destination

/-- One flipped bit in the identifier of a CAN frame. -/
theorem frameDecode_rejects_burst_can :
    ∃ status, status ≠ .ok ∧
      frameDecode interfaceCan (some #v[0x03, 0x20, 0x00, 0x07, 0x00, 0x27, 0xb3]) 7
        (some zeroFrame) = .ok (status, some zeroFrame) := by
  refine frameDecode_rejects_burst emptyCanFrame (Vector.replicate 7 0)
    #v[0x03, 0x21, 0x00, 0x07, 0x00, 0x27, 0xb3] 7 0 7 (le_refl 7) (by decide +kernel)
    #v[0x03, 0x20, 0x00, 0x07, 0x00, 0x27, 0xb3] (by decide) ⟨8, ?_⟩ zeroFrame
  intro i hdiffer
  have hbits : i < 56 := by
    by_contra hlong
    apply hdiffer
    rw [List.getElem?_eq_none (by simpa using hlong), List.getElem?_eq_none (by simpa using hlong)]
  revert hdiffer
  revert i
  decide +kernel

/-- A received buffer that differs from an encoding in an odd number of bits, or
in exactly two bits anywhere, is rejected, and the destination frame is kept. -/
theorem frameDecode_rejects_scattered (f : Frame) (output output' : Vector U8 n)
    (capacity written k : Nat) (hbuffer : capacity ≤ n)
    (hencode : frameEncode (some f) (some output) capacity (some written) =
      .ok (.ok, some output', some k))
    (received : Vector U8 k)
    (hflips : Odd (flips (wordBits (output'.toList.take k)) (wordBits received.toList)) ∨
      flips (wordBits (output'.toList.take k)) (wordBits received.toList) = 2)
    (destination : Frame) :
    ∃ status, status ≠ .ok ∧
      frameDecode f.interfaceType (some received) k (some destination) =
        .ok (status, some destination) := by
  obtain ⟨m, _, hwire, hk⟩ := exists_wire_of_frameEncode hbuffer hencode
  rw [hwire] at hflips
  have hcrc := crcOf_ne_of_flips _ _ (by simp [hk]) m.length_wire_le hflips
  rw [m.crcOf_wire] at hcrc
  exact frameDecode_rejects f.interfaceType received hcrc.symm destination

/-- The first and the last bit of an encoding, flipped together. -/
theorem frameDecode_rejects_scattered_can :
    ∃ status, status ≠ .ok ∧
      frameDecode interfaceCan (some #v[0x83, 0x21, 0x00, 0x07, 0x00, 0x27, 0xb2]) 7
        (some zeroFrame) = .ok (status, some zeroFrame) :=
  frameDecode_rejects_scattered emptyCanFrame (Vector.replicate 7 0)
    #v[0x03, 0x21, 0x00, 0x07, 0x00, 0x27, 0xb3] 7 0 7 (le_refl 7) (by decide +kernel)
    #v[0x83, 0x21, 0x00, 0x07, 0x00, 0x27, 0xb2] (by decide +kernel) zeroFrame

/-! Which encodings can be told apart. -/

/-- The first bytes that encodings of an interface can have. -/
def Interface.Leads : Interface → U8 → Prop
  | .uart, first => first = uartMarker
  | .spi, first => first = spiMarker
  | .can, first => first ≤ 0x07
  | .ethernet, first => first = ethMarkerHigh

/-- The identifier check of CAN keeps its first byte below every marker. -/
theorem Interface.eq_of_leads {i j : Interface} {first : U8} (hi : i.Leads first)
    (hj : j.Leads first) : i = j := by
  cases i <;> cases j <;> simp only [Leads] at hi hj <;>
    first
      | rfl
      | exact absurd (hi.symm.trans hj) (by decide)
      | exact absurd (hi ▸ hj) (by decide)
      | exact absurd (hj ▸ hi) (by decide)

namespace Message

variable {m m' : Message}

/-- Every encoding starts with a byte of its interface. -/
theorem exists_lead (m : Message) :
    ∃ first rest, m.wire = first :: rest ∧ m.interface.Leads first := by
  have hwire : m.wire = m.interface.marker ++ (be16 m.messageId ++
      (be16 m.sequence ++ m.lengthField ++ m.payload ++ be16 (crcOf m.body))) := by
    simp [wire, body, header]
  cases h : m.interface with
  | can =>
      rw [h, Interface.marker, be16] at hwire
      refine ⟨_, _, hwire, ?_⟩
      have hid := m.id_le h
      rw [BitVec.le_def] at hid
      have hbound : m.messageId.toNat ≤ 0x7ff := hid
      simp only [Interface.Leads, BitVec.le_def, BitVec.toNat_setWidth, BitVec.toNat_ushiftRight,
        Nat.shiftRight_eq_div_pow]
      exact (Nat.mod_le _ _).trans (Nat.div_le_div_right hbound)
  | uart | spi | ethernet =>
      rw [h] at hwire
      exact ⟨_, _, hwire, rfl⟩

/-- The length field determines the length of the payload. -/
theorem length_payload_eq (hinterface : m.interface = m'.interface)
    (h : m.lengthField = m'.lengthField) : m.payload.length = m'.payload.length := by
  have hlimit := m.payload_le
  have hlimit' := m'.payload_le
  rw [lengthField, lengthField, ← hinterface] at h
  rw [← hinterface] at hlimit'
  by_cases hcan : m.interface = .can
  · rw [if_pos hcan, if_pos hcan] at h
    rw [hcan] at hlimit hlimit'
    have hfield := congrArg BitVec.toNat (List.cons.inj h).1
    simp only [BitVec.toNat_ofNat, Interface.limit] at hfield hlimit hlimit'
    omega
  · rw [if_neg hcan, if_neg hcan] at h
    have hfield : BitVec.ofNat 16 m.payload.length = BitVec.ofNat 16 m'.payload.length := by
      simp only [be16, List.cons.injEq, and_true] at h
      rw [← be16_append (BitVec.ofNat 16 m.payload.length), h.1, h.2, be16_append]
    rw [← m.toNat_payload_length, hfield, m'.toNat_payload_length]

/-- Encodings of one interface are as long as their common length field says. -/
theorem length_wire_eq (hinterface : m.interface = m'.interface)
    (h : m.wire <+: m'.wire) : m.wire.length = m'.wire.length := by
  have hlength : m.header.length = m'.header.length := by
    rw [m.length_header, m'.length_header, hinterface]
  have hheader : m.header = m'.header := by
    have hprefix : m.header <+: m'.wire :=
      List.IsPrefix.trans (by simp [wire, body]) h
    have hprefix' : m'.header <+: m'.wire := by simp [wire, body]
    exact (List.prefix_of_prefix_length_le hprefix hprefix' hlength.le).eq_of_length hlength
  have hfield : m.lengthField = m'.lengthField := by
    apply (List.append_inj' hheader _).2
    rw [lengthField, lengthField, hinterface]
    split <;> rfl
  rw [m.length_wire, m'.length_wire, hlength, length_payload_eq hinterface hfield]

theorem wire_injective (hinterface : m.interface = m'.interface) (h : m.wire = m'.wire) :
    m = m' := by
  let received : Vector U8 m.wire.length := ⟨m.wire.toArray, by simp⟩
  have hwire : received.toList = m.wire := by simp [received]
  have hdecode := (frameDecode_ok_iff m.interface.code received zeroFrame m.frame).mpr
    ⟨m, rfl, hwire, rfl⟩
  have hdecode' := (frameDecode_ok_iff m.interface.code received zeroFrame m'.frame).mpr
    ⟨m', by rw [hinterface], hwire.trans h, rfl⟩
  rw [hdecode] at hdecode'
  apply frame_injective
  simpa using hdecode'

/-- No encoding is a proper prefix of another one, across all interfaces. -/
theorem eq_of_wire_prefix (h : m.wire <+: m'.wire) : m = m' := by
  obtain ⟨first, rest, hwire, hlead⟩ := m.exists_lead
  obtain ⟨first', rest', hwire', hlead'⟩ := m'.exists_lead
  have hfirst : first = first' := by
    rw [hwire, hwire', List.cons_prefix_cons] at h
    exact h.1
  have hinterface := Interface.eq_of_leads hlead (hfirst ▸ hlead')
  exact wire_injective hinterface (h.eq_of_length (length_wire_eq hinterface h))

end Message

/-- Encodings tell frames apart across all interfaces, also when only a longer
buffer that starts with the encoding is seen: a frame whose encoding is a
prefix of another's has the same content, no buffer is accepted as two types,
and neither a proper prefix nor a proper extension of an encoding is accepted. -/
theorem frameEncode_prefix_free :
    (∀ (n n' k k' : Nat) (f g : Frame) (output output₁ : Vector U8 n) (other other₁ : Vector U8 n')
      (capacity capacity' written written' : Nat), capacity ≤ n → capacity' ≤ n' →
      frameEncode (some f) (some output) capacity (some written) =
        .ok (.ok, some output₁, some k) →
      frameEncode (some g) (some other) capacity' (some written') =
        .ok (.ok, some other₁, some k') →
      output₁.toList.take k <+: other₁.toList.take k' → f.SameContent g) ∧
    (∀ (n : Nat) (w : Vector U8 n) (t t' : Int) (destination destination' g g' : Frame),
      frameDecode t (some w) n (some destination) = .ok (.ok, some g) →
      frameDecode t' (some w) n (some destination') = .ok (.ok, some g') → t = t') ∧
    (∀ (n k l : Nat) (f : Frame) (output output₁ : Vector U8 n) (capacity written : Nat)
      (received : Vector U8 l) (destination : Frame), capacity ≤ n →
      frameEncode (some f) (some output) capacity (some written) =
        .ok (.ok, some output₁, some k) →
      received.toList <+: output₁.toList.take k ∨ output₁.toList.take k <+: received.toList →
      received.toList ≠ output₁.toList.take k →
      ∃ status, status ≠ .ok ∧
        frameDecode f.interfaceType (some received) l (some destination) =
          .ok (status, some destination)) := by
  refine ⟨?_, ?_, ?_⟩
  · intro n n' k k' f g output output₁ other other₁ capacity capacity' written written'
      hbuffer hbuffer' hencode hencode' hprefix
    obtain ⟨m, hm, hwire, _⟩ := exists_wire_of_frameEncode hbuffer hencode
    obtain ⟨m', hm', hwire', _⟩ := exists_wire_of_frameEncode hbuffer' hencode'
    rw [hwire, hwire'] at hprefix
    have hsame := Message.eq_of_wire_prefix hprefix
    subst hsame
    exact hm.sameContent hm'
  · intro n w t t' destination destination' g g' h h'
    obtain ⟨m, rfl, hwire, _⟩ := (frameDecode_ok_iff t w destination g).mp h
    obtain ⟨m', rfl, hwire', _⟩ := (frameDecode_ok_iff t' w destination' g').mp h'
    have hsame : m.wire = m'.wire := hwire.symm.trans hwire'
    rw [Message.eq_of_wire_prefix (hsame ▸ List.prefix_rfl : m.wire <+: m'.wire)]
  · intro n k l f output output₁ capacity written received destination hbuffer hencode hprefix hne
    obtain ⟨m, _, hwire, _⟩ := exists_wire_of_frameEncode hbuffer hencode
    rw [hwire] at hprefix hne
    apply frameDecode_of_ne_wire
    intro m' hwire'
    rw [hwire'] at hprefix hne
    rcases hprefix with hprefix | hprefix
    · exact hne (congrArg Message.wire (Message.eq_of_wire_prefix hprefix))
    · exact hne (congrArg Message.wire (Message.eq_of_wire_prefix hprefix)).symm

/-- A trailing byte behind a CAN encoding. -/
theorem frameEncode_prefix_free_trailing :
    ∃ status, status ≠ .ok ∧
      frameDecode interfaceCan (some #v[0x03, 0x21, 0x00, 0x07, 0x00, 0x27, 0xb3, 0x00]) 8
        (some zeroFrame) = .ok (status, some zeroFrame) :=
  frameEncode_prefix_free.2.2 7 7 8 emptyCanFrame (Vector.replicate 7 0)
    #v[0x03, 0x21, 0x00, 0x07, 0x00, 0x27, 0xb3] 7 0
    #v[0x03, 0x21, 0x00, 0x07, 0x00, 0x27, 0xb3, 0x00] zeroFrame (le_refl 7) (by decide +kernel)
    (by decide) (by decide)

end Esqh
