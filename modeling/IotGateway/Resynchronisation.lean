import IotGateway.Framing
import Mathlib.Data.List.Infix

/-!
# Resynchronisation after noise

Bytes that are not frames may look like the beginning of one.  The frame that
`ReceivePacket` then believes to see covers 136 bytes more at most, so that
frames in which the start byte occurs only at their beginning are lost no
longer than that.
-/

namespace IotGateway

/-- The start byte occurs at the beginning of the frame only. -/
def Frame.Clean (frame : Frame) : Prop := kStart ∉ frame.bytes.tail

instance (frame : Frame) : Decidable frame.Clean :=
  inferInstanceAs (Decidable (kStart ∉ frame.bytes.tail))

/-- No start byte is followed by a header with a data length of one. -/
def NoShortHeader (stream : List UInt8) : Prop :=
  ∀ suffix ∈ stream.tails, suffix.head? = some kStart → suffix[5]? ≠ some 1

instance (stream : List UInt8) : Decidable (NoShortHeader stream) :=
  inferInstanceAs (Decidable (∀ suffix ∈ stream.tails, _ → _))

/-- The bytes of a frame behind its start byte, when its body is as long as it
can be. -/
def maxFrameRest : ℕ := 136

/-- The last frame that is lost begins within the reach of a false start. -/
def LostShortly (lost : List Frame) : Prop :=
  ∀ front last, lost = front ++ [last] → (front.flatMap Frame.bytes).length < maxFrameRest

/-! ## Pieces of a stream -/

theorem NoShortHeader.of_append {front back : List UInt8} (hshort : NoShortHeader (front ++ back)) :
    NoShortHeader back := by
  intro suffix hsuffix
  apply hshort suffix
  rw [List.mem_tails] at hsuffix ⊢
  exact hsuffix.trans (List.suffix_append front back)

theorem exists_noise {bytes : List UInt8} (hstart : kStart ∉ bytes) :
    ∃ segments : List Segment, segments.flatMap Segment.bytes = bytes := by
  induction bytes with
  | nil => exact ⟨[], rfl⟩
  | cons byte bytes ih =>
      rw [List.mem_cons, not_or] at hstart
      obtain ⟨segments, hsegments⟩ := ih hstart.2
      exact ⟨.noise byte (Ne.symm hstart.1) :: segments, congrArg (byte :: ·) hsegments⟩

theorem Frame.bytes_ne_nil (frame : Frame) : frame.bytes ≠ [] := by
  unfold Frame.bytes
  simp

theorem exists_header_bytes {rest : List UInt8} (hlong : 5 ≤ rest.length) :
    ∃ idx targetId command errorCode dataLength behind,
      rest = idx :: targetId :: command :: errorCode :: dataLength :: behind := by
  obtain ⟨idx, rest, rfl⟩ := List.exists_cons_of_length_pos (Nat.lt_of_lt_of_le (by omega) hlong)
  rw [List.length_cons] at hlong
  obtain ⟨targetId, rest, rfl⟩ := List.exists_cons_of_length_pos (l := rest) (by omega)
  rw [List.length_cons] at hlong
  obtain ⟨command, rest, rfl⟩ := List.exists_cons_of_length_pos (l := rest) (by omega)
  rw [List.length_cons] at hlong
  obtain ⟨errorCode, rest, rfl⟩ := List.exists_cons_of_length_pos (l := rest) (by omega)
  rw [List.length_cons] at hlong
  obtain ⟨dataLength, behind, rfl⟩ := List.exists_cons_of_length_pos (l := rest) (by omega)
  exact ⟨idx, targetId, command, errorCode, dataLength, behind, rfl⟩

/-- A start byte with enough bytes behind it is the beginning of a frame or of
an oversized header. -/
theorem exists_segment {rest : List UInt8} (hlong : maxFrameRest ≤ rest.length)
    (hshort : NoShortHeader (kStart :: rest)) :
    ∃ (segment : Segment) (back : List UInt8), segment.bytes ++ back = kStart :: rest ∧
      segment.bytes.length ≤ maxFrameRest + 1 := by
  obtain ⟨idx, targetId, command, errorCode, dataLength, rest, rfl⟩ :=
    exists_header_bytes (Nat.le_trans (by decide) hlong)
  by_cases hlarge : dataLength > receivePacketMaxSlaveCount
  · exact ⟨.oversized idx targetId command errorCode dataLength hlarge, rest, rfl,
      by simp [Segment.bytes, maxFrameRest]⟩
  · have hle : dataLength.toNat ≤ 129 := UInt8.le_iff_toNat_le.mp (UInt8.not_lt.mp hlarge)
    have hone : dataLength ≠ 1 := by
      rintro rfl
      exact hshort _ ((List.mem_tails ..).mpr List.suffix_rfl) rfl rfl
    have hbody : dataLength.toNat = 0 ∨ 2 ≤ dataLength.toNat ∧ dataLength.toNat ≤ 129 := by
      have hne : dataLength.toNat ≠ 1 := fun heq => hone (UInt8.toNat_inj.mp heq)
      omega
    simp only [List.length_cons, maxFrameRest] at hlong
    obtain ⟨body, back, hsplit, hlength⟩ : ∃ body back, rest = body ++ back ∧
        body.length = dataLength.toNat :=
      ⟨rest.take dataLength.toNat, rest.drop dataLength.toNat,
        (List.take_append_drop _ _).symm, by rw [List.length_take]; omega⟩
    have hback : 2 ≤ back.length := by
      rw [hsplit, List.length_append] at hlong
      omega
    obtain ⟨checksum, back, rfl⟩ :=
      List.exists_cons_of_length_pos (Nat.lt_of_lt_of_le (by omega) hback)
    obtain ⟨end_, back, rfl⟩ :=
      List.exists_cons_of_length_pos (Nat.lt_of_succ_le (Nat.le_of_succ_le_succ hback))
    let frame : Frame := ⟨idx, targetId, command, errorCode, body, checksum, end_,
      hlength ▸ hbody⟩
    have hheader : frame.header.dataLength = dataLength := by
      change UInt8.ofNat body.length = dataLength
      rw [hlength, UInt8.ofNat_toNat]
    refine ⟨.frame frame, back, ?_, ?_⟩
    · change frame.bytes ++ back = _
      rw [frame.bytes_append, hheader, hsplit]
      simp [frame]
    · change frame.bytes.length ≤ _
      have hbytes := congrArg List.length (frame.bytes_append [])
      simp only [List.append_nil, List.length_append, List.length_cons, List.length_nil,
        frame] at hbytes
      rw [hbytes, maxFrameRest]
      omega

/-- Wherever a stream of clean frames is entered, there are no start bytes
before the next frame. -/
theorem exists_entry {frames : List Frame} (hclean : ∀ frame ∈ frames, frame.Clean) {count : ℕ}
    (hcount : count ≤ (frames.flatMap Frame.bytes).length) :
    ∃ lost kept bytes, frames = lost ++ kept ∧
      (frames.flatMap Frame.bytes).drop count = bytes ++ kept.flatMap Frame.bytes ∧
      kStart ∉ bytes ∧
      ∀ front last, lost = front ++ [last] → (front.flatMap Frame.bytes).length < count := by
  induction frames generalizing count with
  | nil =>
      refine ⟨[], [], [], rfl, ?_, List.not_mem_nil, ?_⟩
      · simp
      · intro front last hnil
        simp at hnil
  | cons frame frames ih =>
      rw [List.flatMap_cons, List.length_append] at hcount
      rcases Nat.eq_zero_or_pos count with rfl | hpos
      · refine ⟨[], frame :: frames, [], rfl, rfl, List.not_mem_nil, ?_⟩
        intro front last hnil
        simp at hnil
      · by_cases hinside : count < frame.bytes.length
        · refine ⟨[frame], frames, frame.bytes.drop count, rfl, ?_, ?_, ?_⟩
          · rw [List.flatMap_cons, List.drop_append_of_le_length (Nat.le_of_lt hinside)]
          · intro hmem
            apply hclean frame List.mem_cons_self
            obtain ⟨before, rfl⟩ : ∃ before, count = before + 1 := ⟨count - 1, by omega⟩
            rw [← List.drop_tail] at hmem
            exact List.mem_of_mem_drop hmem
          · intro front last hone
            have hnil : front = [] := by
              have hlength := congrArg List.length hone
              simp only [List.length_append, List.length_cons, List.length_nil] at hlength
              exact List.length_eq_zero_iff.mp (by omega)
            rw [hnil]
            exact hpos
        · obtain ⟨lost, kept, bytes, rfl, hdrop, hbytes, hlost⟩ :=
            ih (fun other hmem => hclean other (List.mem_cons_of_mem _ hmem))
              (show count - frame.bytes.length ≤ _ by omega)
          refine ⟨frame :: lost, kept, bytes, rfl, ?_, hbytes, ?_⟩
          · rw [List.flatMap_cons, List.drop_append, List.drop_eq_nil_of_le (by omega)]
            exact hdrop
          · intro front last hsplit
            cases front with
            | nil => exact hpos
            | cons first front =>
                obtain ⟨rfl, hrest⟩ := List.cons.inj hsplit
                have hlt := hlost front last hrest
                rw [List.flatMap_cons, List.length_append]
                omega

/-! ## Streams with noise in front -/

/-- Noise and clean frames are cut into segments that end with the frames which
are not lost. -/
theorem exists_segments (noise : List UInt8) {frames : List Frame}
    (hclean : ∀ frame ∈ frames, frame.Clean)
    (hshort : NoShortHeader (noise ++ frames.flatMap Frame.bytes))
    (hlong : maxFrameRest ≤ (frames.flatMap Frame.bytes).length) :
    ∃ before lost kept, frames = lost ++ kept ∧ LostShortly lost ∧
      (before ++ kept.map Segment.frame).flatMap Segment.bytes =
        noise ++ frames.flatMap Frame.bytes := by
  induction hlength : noise.length using Nat.strongRecOn generalizing noise with
  | _ length ih =>
      have hframes : ∀ list : List Frame,
          (list.map Segment.frame).flatMap Segment.bytes = list.flatMap Frame.bytes := by
        intro list
        rw [List.flatMap_map]
        rfl
      cases noise with
      | nil =>
          refine ⟨[], [], frames, rfl, ?_, by rw [List.nil_append, hframes]; rfl⟩
          intro front last hnil
          simp at hnil
      | cons byte noise =>
          by_cases hbyte : byte = kStart
          · subst hbyte
            have henough : maxFrameRest ≤ (noise ++ frames.flatMap Frame.bytes).length := by
              rw [List.length_append]
              omega
            obtain ⟨segment, back, hsegment, hreach⟩ := exists_segment henough hshort
            rcases List.append_eq_append_iff.mp
              (show segment.bytes ++ back = (kStart :: noise) ++ _ from hsegment) with
              ⟨rest, hnoise, hback⟩ | ⟨begun, hbegun, hrest⟩
            · -- The false frame ends within the noise.
              have hshorter : rest.length < length := by
                have hpos := List.length_pos_iff.mpr segment.bytes_ne_nil
                have hsame := congrArg List.length hnoise
                rw [List.length_append] at hsame
                omega
              rw [hnoise, List.append_assoc] at hshort
              obtain ⟨before, lost, kept, hsplit, hlost, hbytes⟩ :=
                ih rest.length hshorter rest hshort.of_append rfl
              refine ⟨segment :: before, lost, kept, hsplit, hlost, ?_⟩
              rw [hnoise, List.cons_append, List.flatMap_cons, hbytes, List.append_assoc]
            · -- It ends within the frames, and the rest of the frame it ends in is noise.
              have hcount : begun.length ≤ maxFrameRest := by
                have hsame := congrArg List.length hbegun
                rw [List.length_append, List.length_cons] at hsame
                omega
              obtain ⟨lost, kept, bytes, hsplit, hdrop, hbytes, hlost⟩ :=
                exists_entry hclean (Nat.le_trans hcount hlong)
              obtain ⟨segments, hsegments⟩ := exists_noise hbytes
              refine ⟨segment :: segments, lost, kept, hsplit, ?_, ?_⟩
              · intro front last hlast
                exact Nat.lt_of_lt_of_le (hlost front last hlast) hcount
              · rw [hrest, List.drop_left] at hdrop
                rw [List.cons_append, List.flatMap_cons, List.flatMap_append, hsegments, hframes,
                  ← hdrop]
                exact hsegment
          · have hrest : NoShortHeader (noise ++ frames.flatMap Frame.bytes) :=
              NoShortHeader.of_append (show NoShortHeader ([byte] ++ _) from hshort)
            rw [List.length_cons] at hlength
            obtain ⟨before, lost, kept, hsplit, hlost, hbytes⟩ :=
              ih noise.length (by omega) noise hrest rfl
            refine ⟨.noise byte hbyte :: before, lost, kept, hsplit, hlost, ?_⟩
            exact congrArg (byte :: ·) hbytes

theorem due_frames (frames : List Frame) :
    due (frames.map Segment.frame) = frames.map Segment.frame := by
  unfold due
  rw [List.filter_eq_self]
  intro segment hmem
  obtain ⟨frame, _, rfl⟩ := List.mem_map.mp hmem
  rfl

theorem length_le_bytes (segments : List Segment) :
    segments.length ≤ (segments.flatMap Segment.bytes).length := by
  induction segments with
  | nil => exact Nat.le_refl _
  | cons segment segments ih =>
      have hpos := List.length_pos_iff.mpr segment.bytes_ne_nil
      rw [List.length_cons, List.flatMap_cons, List.length_append]
      omega

/-- Whatever noise is in front of clean frames, repeated calls of
`ReceivePacket`, none of whose reads times out short, end with one report of
each frame that begins 136 bytes or more behind the noise, in their order. -/
theorem resynchronisation {noise : List UInt8} {frames : List Frame} {port : Serial} {calls : ℕ}
    (hstream : port.stream = noise ++ frames.flatMap Frame.bytes)
    (hclean : ∀ frame ∈ frames, frame.Clean) (hshort : NoShortHeader port.stream)
    (hlong : maxFrameRest ≤ (frames.flatMap Frame.bytes).length)
    (hfull : (receiveCalls calls port).2.ReadsFull)
    (hcalls : port.stream.length + port.ticks ≤ calls) :
    ∃ lost kept early reports, frames = lost ++ kept ∧ LostShortly lost ∧
      (receiveCalls calls port).1.filter (fun outcome => !isHeaderFailure outcome) =
        early ++ reports ∧
      List.Forall₂ Segment.Reported (kept.map Segment.frame) reports := by
  rw [hstream] at hshort
  obtain ⟨before, lost, kept, hsplit, hlost, hbytes⟩ :=
    exists_segments noise hclean hshort hlong
  rw [← hbytes] at hstream
  obtain ⟨seen, unseen, hdue, hseen, hall⟩ :=
    receiveCalls_framing _ port calls hstream hfull
  have hlength := length_le_bytes (before ++ kept.map Segment.frame)
  rw [← hstream] at hlength
  rw [hall (by omega), List.append_nil] at hdue
  have hdueFrames : due (before ++ kept.map Segment.frame) =
      due before ++ kept.map Segment.frame := by
    rw [← due_frames kept]
    unfold due
    rw [List.filter_append, List.filter_filter]
    simp
  rw [← hdue, hdueFrames] at hseen
  have hkept := List.forall₂_drop (due before).length hseen
  rw [List.drop_left] at hkept
  exact ⟨lost, kept, _, _, hsplit, hlost, (List.take_append_drop _ _).symm, hkept⟩

/-- The start of the longest frame there can be, and answers to polls behind it. -/
def entangledPort : Serial where
  line := ⟨[], [0x0d, 0x23, 0x27, 0x11, 0xc1, 0x80, 0x81] ++
    (List.replicate 20 pollAnswer).flatMap Frame.bytes, []⟩
  peer := fun _ _ => []
  trace := []

theorem resynchronisation_entangled :
    ∃ lost kept early reports, List.replicate 20 pollAnswer = lost ++ kept ∧
      LostShortly lost ∧
      (receiveCalls 167 entangledPort).1.filter (fun outcome => !isHeaderFailure outcome) =
        early ++ reports ∧
      List.Forall₂ Segment.Reported (kept.map Segment.frame) reports := by
  have hclean : ∀ frame ∈ List.replicate 20 pollAnswer, frame.Clean := by
    intro frame hmem
    rw [(List.mem_replicate.mp hmem).2]
    decide
  exact @resynchronisation [0x0d, 0x23, 0x27, 0x11, 0xc1, 0x80, 0x81] _ entangledPort 167 rfl
    hclean (by decide +kernel) (by decide +kernel) (by decide +kernel) (by decide +kernel)

end IotGateway
