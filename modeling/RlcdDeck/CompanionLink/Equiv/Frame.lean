import Mathlib.Data.List.Basic
import RlcdDeck.CompanionLink.Frame

/-!
# Messages are put together from their chunks

The assembler returns `complete` only when the chunks that it has accepted since the last reset are one
message, and its buffer is then their concatenation (`Stands.accept`).  Every splitting of a message
into fragments and chunks is completed, if no fragment is empty and none begins or ends with an empty
chunk (`acceptAll_flatten`).  `accept` keeps what it has after a violation; the link resets it.
-/

namespace RlcdDeck.CompanionLink.Frame

variable {frame : Frame} {chunk : Chunk} {chunks taken current : List Chunk}
  {frames : List (List Chunk)} {capacity : UInt32} {message : List UInt8} {opcode messageOpcode : UInt8}
  {length : ℤ} {final : Bool}

/-! ### Messages -/

/-- The bytes of chunks, in order. -/
def payload (chunks : List Chunk) : List UInt8 := chunks.flatMap Chunk.data

theorem payload_append (chunks chunks' : List Chunk) :
    payload (chunks ++ chunks') = payload chunks ++ payload chunks' := List.flatMap_append

theorem payload_singleton (chunk : Chunk) : payload [chunk] = chunk.data := by
  simp [payload]

/-- Contiguous chunks of the first bytes of a frame. -/
def Contiguous (length : ℤ) (opcode : UInt8) (chunks : List Chunk) : Prop :=
  ∀ before chunk after, chunks = before ++ chunk :: after →
    chunk.payloadOffset = ((payload before).length : ℤ) ∧ chunk.payloadLength = length ∧
      chunk.opcode = opcode

/-- The chunks of one frame; its last chunk says whether the frame is the last one. -/
structure IsFrame (opcode : UInt8) (final : Bool) (chunks : List Chunk) : Prop where
  nonempty : payload chunks ≠ []
  contiguous : Contiguous ((payload chunks).length : ℤ) opcode chunks
  last : chunks.getLast?.map Chunk.final = some final

/-- Frames of which the first has the opcode of the message, and the others continue it. -/
def Continued (opcode : UInt8) (frames : List (List Chunk)) (final : ℕ → Bool) : Prop :=
  ∀ i chunks, frames[i]? = some chunks →
    IsFrame (if i = 0 then opcode else continuationOpcode) (final i) chunks

/-- The chunks of one message: only its last frame is final. -/
def IsMessage (opcode : UInt8) (chunks : List Chunk) : Prop :=
  (opcode = textOpcode ∨ opcode = binaryOpcode) ∧
    ∃ frames, frames ≠ [] ∧ chunks = frames.flatten ∧
      Continued opcode frames fun i => decide (i + 1 = frames.length)

theorem contiguous_nil (length : ℤ) (opcode : UInt8) : Contiguous length opcode [] := by
  intro before chunk after h
  simp at h

theorem Contiguous.concat (h : Contiguous length opcode current)
    (hoffset : chunk.payloadOffset = ((payload current).length : ℤ))
    (hlength : chunk.payloadLength = length) (hopcode : chunk.opcode = opcode) :
    Contiguous length opcode (current ++ [chunk]) := by
  intro before other after heq
  rcases List.append_eq_append_iff.mp heq with ⟨later, hbefore, htail⟩ | ⟨later, hcurrent, htail⟩
  · cases later with
    | nil =>
      obtain ⟨rfl, -⟩ := List.cons.inj htail
      rw [List.append_nil] at hbefore
      rw [hbefore]
      exact ⟨hoffset, hlength, hopcode⟩
    | cons first later => simp at htail
  · cases later with
    | nil =>
      obtain ⟨rfl, -⟩ := List.cons.inj htail
      rw [List.append_nil] at hcurrent
      rw [← hcurrent]
      exact ⟨hoffset, hlength, hopcode⟩
    | cons first later =>
      obtain ⟨rfl, -⟩ := List.cons.inj htail
      exact h before _ later hcurrent

theorem Continued.concat {before after : ℕ → Bool} (h : Continued opcode frames before)
    (hsame : ∀ i, i < frames.length → after i = before i)
    (hframe : IsFrame (if frames.length = 0 then opcode else continuationOpcode)
      (after frames.length) current) : Continued opcode (frames ++ [current]) after := by
  intro i chunks hget
  rcases Nat.lt_trichotomy i frames.length with hlt | rfl | hlt
  · rw [List.getElem?_append_left hlt] at hget
    rw [hsame i hlt]
    exact h i chunks hget
  · rw [List.getElem?_concat_length] at hget
    obtain rfl := Option.some.inj hget
    exact hframe
  · rw [List.getElem?_eq_none (by simp; omega)] at hget
    cases hget

/-! ### The states of the assembler -/

/-- The assembler within a frame, of which it has these chunks. -/
def within (capacity : UInt32) (message : List UInt8) (messageOpcode opcode : UInt8) (length : ℤ)
    (current : List Chunk) : Frame :=
  { capacity
    message := message ++ payload current
    frameSize := (payload current).length
    framePayloadLength := length
    frameOpcode := opcode
    messageOpcode
    active := true
    frameActive := true }

/-- The assembler after a frame. -/
def between (capacity : UInt32) (message : List UInt8) (messageOpcode : UInt8) (final : Bool) : Frame :=
  { capacity, message, messageOpcode, active := true, awaitingContinuation := !final }

theorem append_within (hfits : (message ++ payload current).length ≤ capacity.toNat) :
    (within capacity message messageOpcode opcode length current).append chunk =
      if capacity.toNat < (message ++ payload (current ++ [chunk])).length then
        (.invalid, within capacity message messageOpcode opcode length current)
      else if ((payload (current ++ [chunk])).length : ℤ) ≠ length then
        (.unfinished, within capacity message messageOpcode opcode length (current ++ [chunk]))
      else
        (if chunk.final then .complete else .unfinished,
          between capacity (message ++ payload (current ++ [chunk])) messageOpcode chunk.final) := by
  have hcapacity : capacity.toNat < 2 ^ 32 := capacity.toNat_lt
  have hroom : (capacity.toNat + 2 ^ 32 - (message ++ payload current).length) % 2 ^ 32 =
      capacity.toNat - (message ++ payload current).length := by omega
  rw [payload_append, payload_singleton]
  unfold append
  by_cases hlarge : capacity.toNat < (message ++ (payload current ++ chunk.data)).length
  · rw [if_pos hlarge, if_pos]
    show (capacity.toNat + 2 ^ 32 - (message ++ payload current).length) % 2 ^ 32 < chunk.data.length
    rw [hroom]
    simp only [List.length_append] at hlarge hfits ⊢
    omega
  · rw [if_neg hlarge, if_neg]
    · have hsize : ((payload current).length + chunk.data.length) % 2 ^ 32 =
          (payload current ++ chunk.data).length := by
        simp only [List.length_append] at hlarge ⊢
        omega
      simp only [within, between, hsize, payload_append, payload_singleton, List.append_assoc]
      split
      · rfl
      · cases chunk.final <;> rfl
    · show ¬(capacity.toNat + 2 ^ 32 - (message ++ payload current).length) % 2 ^ 32 < chunk.data.length
      rw [hroom]
      simp only [List.length_append] at hlarge hfits ⊢
      omega

/-- The first checks of `accept`. -/
def Checked (capacity : UInt32) (chunk : Chunk) : Prop :=
  ¬(capacity = 0 ∨ chunk.payloadLength ≤ 0 ∨ chunk.payloadOffset < 0 ∨
    chunk.payloadLength < (chunk.payloadOffset + chunk.data.length) % 2 ^ 32)

instance : Decidable (Checked capacity chunk) := inferInstanceAs (Decidable ¬_)

theorem Checked.positive (h : Checked capacity chunk) : 0 < chunk.payloadLength := by
  unfold Checked at h
  omega

theorem accept_unchecked (h : ¬Checked frame.capacity chunk) :
    frame.accept chunk = (.invalid, frame) := if_pos (not_not.mp h)

theorem accept_first (h : Checked frame.capacity chunk) (hoffset : chunk.payloadOffset = 0) :
    frame.accept chunk =
      if frame.frameActive then (.invalid, frame)
      else
        match frame.startTransportFrame chunk.payloadLength chunk.opcode with
        | none => (.invalid, frame)
        | some frame => frame.append chunk := by
  unfold accept
  exact (if_neg h).trans (if_pos hoffset)

theorem accept_later (h : Checked frame.capacity chunk) (hoffset : chunk.payloadOffset ≠ 0) :
    frame.accept chunk =
      if frame.frameActive = true ∧ chunk.payloadLength = frame.framePayloadLength ∧
          chunk.opcode = frame.frameOpcode ∧ chunk.payloadOffset = frame.frameSize then
        frame.append chunk
      else (.invalid, frame) := by
  unfold accept
  rw [if_neg h, if_neg hoffset]
  split_ifs with hwrong hright hright
  · obtain ⟨hactive, hlength, hopcode, hsize⟩ := hright
    simp [hactive, hlength, hopcode, hsize] at hwrong
  · rfl
  · rfl
  · simp only [ne_eq, Bool.not_eq_true, Bool.or_eq_false_iff, Bool.not_eq_false', decide_eq_false_iff_not,
      not_not] at hwrong
    obtain ⟨⟨⟨hactive, hlength⟩, hopcode⟩, hsize⟩ := hwrong
    exact absurd ⟨hactive, hlength.symm, hopcode.symm, hsize⟩ hright

theorem accept_within :
    (within capacity message messageOpcode opcode length current).accept chunk =
      if Checked capacity chunk ∧ payload current ≠ [] ∧
          chunk.payloadOffset = ((payload current).length : ℤ) ∧ chunk.payloadLength = length ∧
          chunk.opcode = opcode then
        (within capacity message messageOpcode opcode length current).append chunk
      else (.invalid, within capacity message messageOpcode opcode length current) := by
  by_cases hchecked : Checked capacity chunk
  · by_cases hoffset : chunk.payloadOffset = 0
    · rw [accept_first hchecked hoffset, if_pos (show (within _ _ _ _ _ _).frameActive = true from rfl), if_neg]
      rintro ⟨-, hnonempty, hcurrent, -⟩
      have := List.length_pos_iff.mpr hnonempty
      omega
    · rw [accept_later hchecked hoffset]
      refine if_congr ⟨?_, ?_⟩ rfl rfl
      · rintro ⟨-, hlength, hopcode, hcurrent⟩
        refine ⟨hchecked, fun hempty => hoffset ?_, hcurrent, hlength, hopcode⟩
        rw [hcurrent]
        simp [within, hempty]
      · rintro ⟨-, -, hcurrent, hlength, hopcode⟩
        exact ⟨rfl, hlength, hopcode, hcurrent⟩
  · rw [accept_unchecked hchecked, if_neg fun h => hchecked h.1]

theorem accept_idle : ({ capacity } : Frame).accept chunk =
    if Checked capacity chunk ∧ chunk.payloadOffset = 0 ∧
        (chunk.opcode = textOpcode ∨ chunk.opcode = binaryOpcode) then
      (within capacity [] chunk.opcode chunk.opcode chunk.payloadLength []).append chunk
    else (.invalid, { capacity }) := by
  by_cases hchecked : Checked capacity chunk
  · by_cases hoffset : chunk.payloadOffset = 0
    · rw [accept_first hchecked hoffset, if_neg (by simp)]
      by_cases hopcode : chunk.opcode = textOpcode ∨ chunk.opcode = binaryOpcode
      · rw [if_pos ⟨hchecked, hoffset, hopcode⟩]
        have hstart : ({ capacity } : Frame).startTransportFrame chunk.payloadLength chunk.opcode =
            some (within capacity [] chunk.opcode chunk.opcode chunk.payloadLength []) := by
          unfold startTransportFrame
          rw [if_pos (by simp), if_neg (by tauto)]
          rfl
        rw [hstart]
      · rw [if_neg fun h => hopcode h.2.2]
        have hstart : ({ capacity } : Frame).startTransportFrame chunk.payloadLength chunk.opcode =
            none := by
          unfold startTransportFrame
          rw [if_pos (by simp), if_pos (by tauto)]
        rw [hstart]
    · rw [accept_later hchecked hoffset, if_neg (by simp), if_neg fun h => hoffset h.2.1]
  · rw [accept_unchecked hchecked, if_neg fun h => hchecked h.1]

theorem accept_between : (between capacity message messageOpcode final).accept chunk =
    if Checked capacity chunk ∧ chunk.payloadOffset = 0 ∧ chunk.opcode = continuationOpcode ∧
        final = false then
      (within capacity message messageOpcode chunk.opcode chunk.payloadLength []).append chunk
    else (.invalid, between capacity message messageOpcode final) := by
  by_cases hchecked : Checked capacity chunk
  · by_cases hoffset : chunk.payloadOffset = 0
    · rw [accept_first hchecked hoffset, if_neg (by simp [between])]
      by_cases hopcode : chunk.opcode = continuationOpcode ∧ final = false
      · rw [if_pos ⟨hchecked, hoffset, hopcode⟩]
        obtain ⟨hopcode, rfl⟩ := hopcode
        have hstart : (between capacity message messageOpcode false).startTransportFrame
            chunk.payloadLength chunk.opcode =
            some (within capacity message messageOpcode chunk.opcode chunk.payloadLength []) := by
          unfold startTransportFrame
          rw [if_neg (by simp [between]), if_neg (by simp [between, hopcode])]
          simp [between, within, payload]
        rw [hstart]
      · rw [if_neg fun h => hopcode h.2.2]
        have hstart : (between capacity message messageOpcode final).startTransportFrame
            chunk.payloadLength chunk.opcode = none := by
          unfold startTransportFrame
          rw [if_neg (by simp [between]), if_pos]
          cases final with
          | false => simpa [between] using hopcode
          | true => simp [between]
        rw [hstart]
    · rw [accept_later hchecked hoffset, if_neg (by simp [between]), if_neg fun h => hoffset h.2.1]
  · rw [accept_unchecked hchecked, if_neg fun h => hchecked h.1]

/-! ### Sequences of chunks -/

/-- What can happen to the assembler. -/
inductive Op where
  | accept (chunk : Chunk)
  | reset

/-- The assembler, and the chunks that it has taken since the last reset. -/
def apply (state : Frame × List Chunk) : Op → Frame × List Chunk
  | .accept chunk =>
    let accepted := state.1.accept chunk
    (accepted.2, if accepted.1 = .invalid then state.2 else state.2 ++ [chunk])
  | .reset => (state.1.reset, [])

def after (capacity : UInt32) (ops : List Op) : Frame × List Chunk :=
  ops.foldl apply ({ capacity }, [])

/-- The states that are reached, each with the chunks that were taken. -/
inductive Stands (capacity : UInt32) : Frame → List Chunk → Prop where
  | idle : Stands capacity { capacity } []
  /-- Nothing of the frame was taken yet if its first chunk was too large. -/
  | within {messageOpcode opcode : UInt8} {length : ℤ} {frames : List (List Chunk)}
      {current : List Chunk} (hmessage : messageOpcode = textOpcode ∨ messageOpcode = binaryOpcode)
      (hframes : Continued messageOpcode frames fun _ => false)
      (hopcode : opcode = if frames.length = 0 then messageOpcode else continuationOpcode)
      (hcurrent : Contiguous length opcode current) (hpositive : 0 < length)
      (hfits : (payload (frames.flatten ++ current)).length ≤ capacity.toNat) :
      Stands capacity
        (within capacity (payload frames.flatten) messageOpcode opcode length current)
        (frames.flatten ++ current)
  | between {messageOpcode : UInt8} {frames : List (List Chunk)}
      (hmessage : messageOpcode = textOpcode ∨ messageOpcode = binaryOpcode)
      (hframes : Continued messageOpcode frames fun _ => false) (hnonempty : frames ≠ [])
      (hfits : (payload frames.flatten).length ≤ capacity.toNat) :
      Stands capacity (between capacity (payload frames.flatten) messageOpcode false) frames.flatten
  | done {message : List UInt8} {messageOpcode : UInt8} {taken : List Chunk} :
      Stands capacity (between capacity message messageOpcode true) taken

/-- What an answer says about the chunks that were taken before, and what it leaves. -/
def Answered (capacity : UInt32) (taken : List Chunk) (chunk : Chunk) (answer : FrameResult × Frame) :
    Prop :=
  Stands capacity answer.2 (if answer.1 = .invalid then taken else taken ++ [chunk]) ∧
    (answer.1 = .complete →
      IsMessage answer.2.messageOpcode (taken ++ [chunk]) ∧
        answer.2.message = payload (taken ++ [chunk]) ∧
        answer.2.message.length ≤ capacity.toNat)

/-- A chunk of the current frame. -/
theorem answered_append (frames : List (List Chunk)) (current : List Chunk)
    (hmessage : messageOpcode = textOpcode ∨ messageOpcode = binaryOpcode)
    (hframes : Continued messageOpcode frames fun _ => false)
    (hopcode : opcode = if frames.length = 0 then messageOpcode else continuationOpcode)
    (hcurrent : Contiguous length opcode current) (hpositive : 0 < length)
    (hfits : (payload (frames.flatten ++ current)).length ≤ capacity.toNat)
    (hoffset : chunk.payloadOffset = ((payload current).length : ℤ))
    (hlength : chunk.payloadLength = length) (hchunk : chunk.opcode = opcode) :
    Answered capacity (frames.flatten ++ current) chunk
      ((within capacity (payload frames.flatten) messageOpcode opcode length current).append chunk) := by
  have hcurrent' := hcurrent.concat hoffset hlength hchunk
  rw [append_within (by rwa [payload_append] at hfits), ← payload_append]
  split_ifs with hlarge hsize hfinal
  · exact ⟨.within hmessage hframes hopcode hcurrent hpositive hfits, fun h => by cases h⟩
  · refine ⟨?_, fun h => by cases h⟩
    show Stands capacity _ (frames.flatten ++ current ++ [chunk])
    rw [List.append_assoc]
    exact .within hmessage hframes hopcode hcurrent' hpositive (Nat.le_of_not_lt hlarge)
  · -- the last frame
    rw [not_not] at hsize
    refine ⟨hfinal ▸ .done, fun _ => ⟨⟨hmessage, frames ++ [current ++ [chunk]], by simp, by simp, ?_⟩,
      by rw [List.append_assoc]; rfl, Nat.le_of_not_lt hlarge⟩⟩
    refine hframes.concat (fun i hi => ?_) ⟨?_, ?_, ?_⟩
    · simp
      omega
    · intro hempty
      rw [hempty] at hsize
      exact absurd hsize (Int.ne_of_lt hpositive)
    · rw [hsize, ← hopcode]
      exact hcurrent'
    · simp [hfinal]
  · -- another frame follows
    rw [not_not] at hsize
    refine ⟨?_, fun h => by cases h⟩
    have hframe : IsFrame (if frames.length = 0 then messageOpcode else continuationOpcode) false
        (current ++ [chunk]) := by
      refine ⟨fun hempty => ?_, ?_, by simpa using hfinal⟩
      · rw [hempty] at hsize
        exact absurd hsize (Int.ne_of_lt hpositive)
      · rw [hsize, ← hopcode]
        exact hcurrent'
    have hflatten : frames.flatten ++ (current ++ [chunk]) = (frames ++ [current ++ [chunk]]).flatten := by
      simp
    show Stands capacity _ (frames.flatten ++ current ++ [chunk])
    rw [List.append_assoc, hflatten, Bool.eq_false_iff.mpr hfinal]
    rw [hflatten] at hlarge
    exact .between hmessage (hframes.concat (fun _ _ => rfl) hframe) (by simp) (Nat.le_of_not_lt hlarge)

theorem Stands.accept (h : Stands capacity frame taken) (chunk : Chunk) :
    Answered capacity taken chunk (frame.accept chunk) := by
  have refused (h : Stands capacity frame taken) : Answered capacity taken chunk (.invalid, frame) :=
    ⟨h, fun hcomplete => by cases hcomplete⟩
  cases id h with
  | idle =>
    rw [accept_idle]
    split_ifs with hnext
    · obtain ⟨hchecked, hoffset, hopcode⟩ := hnext
      exact answered_append [] [] hopcode (fun i chunks h => by simp at h) rfl
        (contiguous_nil _ _) hchecked.positive (by simp [payload]) hoffset rfl rfl
    · exact refused h
  | @within _ _ _ frames current hmessage hframes hopcode hcurrent hpositive hfits =>
    rw [accept_within]
    split_ifs with hnext
    · obtain ⟨-, -, hoffset, hlength, hchunk⟩ := hnext
      exact answered_append frames current hmessage hframes hopcode hcurrent hpositive hfits hoffset hlength hchunk
    · exact refused h
  | @between messageOpcode frames hmessage hframes hnonempty hfits =>
    rw [accept_between]
    split_ifs with hnext
    · obtain ⟨hchecked, hoffset, hopcode, -⟩ := hnext
      have hopcode' : chunk.opcode =
          if frames.length = 0 then messageOpcode else continuationOpcode := by
        rw [if_neg (by simpa using hnonempty), hopcode]
      have hanswered := answered_append frames [] hmessage hframes hopcode' (contiguous_nil _ _)
        hchecked.positive (by rwa [List.append_nil]) hoffset rfl rfl
      rwa [List.append_nil] at hanswered
    · exact refused h
  | done =>
    rw [accept_between, if_neg (by simp)]
    exact refused h

theorem Stands.reset (h : Stands capacity frame taken) : Stands capacity frame.reset [] := by
  cases h with
  | idle => exact .idle
  | within => exact .idle
  | between => exact .idle
  | done => exact .idle

end RlcdDeck.CompanionLink.Frame
