import RlcdDeck.Display.Service
import Mathlib.Data.Fintype.Prod
import Mathlib.Data.List.GetD
import Mathlib.Tactic.IntervalCases
import Mathlib.Tactic.Ring

/-!
# Packed pixels

Every bit of a frame is that of one pixel (`pixelPosition_bijective`), so a frame is an image of
one bit a pixel.  One pass of the loops sets one pixel (`pixelBit_packPixel`), and both loops set the
pixels of the area, which come one after the other (`Packed.row`, `Packed.rows`).
-/

namespace RlcdDeck.Display

/-! ### Positions -/

theorem frameBytes_eq : frameBytes = 15000 := rfl

/-- The bit of a pixel: its byte and its place there. -/
def pixelPosition (p : Fin width × Fin height) : Fin frameBytes × Fin 8 :=
  (⟨frameIndex p.1 p.2, by
      have hx : p.1.val < 400 := p.1.isLt
      have hy : p.2.val < 300 := p.2.isLt
      simp only [frameIndex, height, frameBytes_eq]
      omega⟩,
    ⟨bitIndex p.1 p.2, by
      unfold bitIndex
      omega⟩)

theorem pixelPosition_injective : Function.Injective pixelPosition := by
  rintro ⟨⟨x, hx⟩, ⟨y, hy⟩⟩ ⟨⟨x', hx'⟩, ⟨y', hy'⟩⟩ h
  have hindex : frameIndex x y = frameIndex x' y' := congrArg (fun p => p.1.val) h
  have hbit : bitIndex x y = bitIndex x' y' := congrArg (fun p => p.2.val) h
  simp only [frameIndex, bitIndex, height, width] at hindex hbit hx hy hx' hy'
  have hcolumns : x / 2 = x' / 2 := by omega
  have hrows : (299 - y) / 4 = (299 - y') / 4 := by omega
  have hparity : x % 2 = x' % 2 := by omega
  have hplace : (299 - y) % 4 = (299 - y') % 4 := by omega
  have hxx : x = x' := by omega
  have hyy : y = y' := by omega
  subst hxx hyy
  rfl

/-- **Every bit of a frame is that of one pixel.** -/
theorem pixelPosition_bijective : Function.Bijective pixelPosition := by
  refine (Fintype.bijective_iff_injective_and_card _).mpr ⟨pixelPosition_injective, ?_⟩
  simp only [Fintype.card_prod, Fintype.card_fin]
  rfl

def bitAt (frame : List UInt8) (position : Fin frameBytes × Fin 8) : Bool :=
  (frame.getD position.1 0).toNat.testBit position.2

/-- Whether a pixel is white. -/
def pixelBit (frame : List UInt8) (p : Fin width × Fin height) : Bool :=
  bitAt frame (pixelPosition p)

theorem eq_of_testBit {byte other : UInt8}
    (h : ∀ j : Fin 8, byte.toNat.testBit j = other.toNat.testBit j) : byte = other := by
  apply UInt8.toNat_inj.mp
  apply Nat.eq_of_testBit_eq
  intro bit
  by_cases hbit : bit < 8
  · exact h ⟨bit, hbit⟩
  · have hhigh : ∀ byte : UInt8, byte.toNat.testBit bit = false := fun byte =>
      Nat.testBit_lt_two_pow (byte.toNat_lt.trans_le (Nat.pow_le_pow_right (by decide) (by omega)))
    rw [hhigh, hhigh]

theorem eq_of_pixelBit {frame other : List UInt8} (hframe : frame.length = frameBytes)
    (hother : other.length = frameBytes) (h : ∀ p, pixelBit frame p = pixelBit other p) :
    frame = other := by
  refine List.ext_getElem (hframe.trans hother.symm) fun index hindex hindex' => ?_
  rw [← List.getD_eq_getElem _ 0 hindex, ← List.getD_eq_getElem _ 0 hindex']
  apply eq_of_testBit
  intro bit
  obtain ⟨p, hp⟩ := pixelPosition_bijective.surjective (⟨index, hframe ▸ hindex⟩, bit)
  have hsame := h p
  unfold pixelBit at hsame
  rw [hp] at hsame
  exact hsame

/-! ### One pixel -/

section Pixels

variable {pixels : List UInt16}

theorem testBit_mask (k j : Fin 8) :
    ((1 : UInt8) <<< UInt8.ofNat k).toNat.testBit j = decide (j = k) ∧
      (~~~((1 : UInt8) <<< UInt8.ofNat k)).toNat.testBit j = decide (j ≠ k) := by
  revert k j
  decide

theorem testBit_setBit (previous : UInt8) (white : Prop) [Decidable white] (k j : Fin 8) :
    (if white then previous ||| 1 <<< UInt8.ofNat k
      else previous &&& ~~~(1 <<< UInt8.ofNat k)).toNat.testBit j =
      if j = k then decide white else previous.toNat.testBit j := by
  obtain ⟨hset, hclear⟩ := testBit_mask k j
  by_cases hwhite : white
  · rw [if_pos hwhite, UInt8.toNat_or, Nat.testBit_or, hset]
    by_cases hj : j = k
    · simp [hj, hwhite]
    · simp [hj]
  · rw [if_neg hwhite, UInt8.toNat_and, Nat.testBit_and, hclear]
    by_cases hj : j = k
    · simp [hj, hwhite]
    · simp [hj]

/-- **One pass of the loops** sets one pixel. -/
theorem pixelBit_packPixel (pixels : List UInt16) {s : Packing} (hframe : s.frame.length = frameBytes)
    (q p : Fin width × Fin height) :
    pixelBit (packPixel pixels q.2 s q.1).frame p =
      if p = q then decide (0x7fff ≤ pixels.getD s.pixelIndex 0) else pixelBit s.frame p := by
  unfold pixelBit bitAt
  show ((s.frame.set (pixelPosition q).1 _).getD (pixelPosition p).1 0).toNat.testBit _ = _
  by_cases hindex : (pixelPosition p).1 = (pixelPosition q).1
  · rw [hindex, List.getD_eq_getElem?_getD, List.getElem?_set_self (by
      rw [hframe]
      exact (pixelPosition q).1.isLt), Option.getD_some]
    have hbit := testBit_setBit (s.frame.getD (pixelPosition q).1 0)
      (0x7fff ≤ pixels.getD s.pixelIndex 0) (pixelPosition q).2 (pixelPosition p).2
    refine hbit.trans ?_
    have hiff : (pixelPosition p).2 = (pixelPosition q).2 ↔ p = q :=
      ⟨fun h => pixelPosition_injective (Prod.ext hindex h), fun h => by rw [h]⟩
    simp only [hiff]
  · have hne : p ≠ q := fun h => hindex (by rw [h])
    rw [if_neg hne, List.getD_eq_getElem?_getD, List.getElem?_set_ne (fun h => hindex
      (Fin.ext h.symm)), ← List.getD_eq_getElem?_getD]

theorem changed_packPixel (s : Packing) (q : Fin width × Fin height) :
    (packPixel pixels q.2 s q.1).changed = true ↔
      s.changed = true ∨ pixelBit s.frame q ≠ decide (0x7fff ≤ pixels.getD s.pixelIndex 0) := by
  have hbit := testBit_setBit (s.frame.getD (frameIndex q.1 q.2) 0)
    (0x7fff ≤ pixels.getD s.pixelIndex 0) (pixelPosition q).2
  show (s.changed || decide (_ ≠ _)) = true ↔ _
  rw [Bool.or_eq_true, decide_eq_true_eq]
  refine or_congr Iff.rfl (not_congr ?_)
  constructor
  · intro hsame
    have hplace := hbit (pixelPosition q).2
    rw [if_pos rfl] at hplace
    rw [← hplace]
    exact congrArg (fun byte : UInt8 => byte.toNat.testBit (pixelPosition q).2) hsame.symm
  · intro hsame
    apply eq_of_testBit
    intro j
    refine (hbit j).trans ?_
    split_ifs with hj
    · rw [← hsame, hj]
      rfl
    · rfl

end Pixels

/-! ### Areas -/

/-- The areas of the display. -/
def Area.Valid (area : Area) : Prop :=
  0 ≤ area.x1 ∧ 0 ≤ area.y1 ∧ area.x1 ≤ area.x2 ∧ area.y1 ≤ area.y2 ∧ area.x2 < width ∧
    area.y2 < height

def Area.Contains (area : Area) (p : Fin width × Fin height) : Prop :=
  (area.x1 ≤ p.1.val ∧ (p.1.val : ℤ) ≤ area.x2) ∧ area.y1 ≤ p.2.val ∧ (p.2.val : ℤ) ≤ area.y2

instance (area : Area) (p : Fin width × Fin height) : Decidable (area.Contains p) := by
  unfold Area.Contains
  infer_instance

/-- The place of a pixel in the array of its area. -/
def Area.order (area : Area) (p : Fin width × Fin height) : ℕ :=
  (p.2 - area.y1.toNat) * area.columns + (p.1 - area.x1.toNat)

section Areas

variable {area : Area}

theorem Area.Contains.bounds (hvalid : area.Valid) {p : Fin width × Fin height}
    (h : area.Contains p) : area.x1.toNat ≤ p.1 ∧ p.1 - area.x1.toNat < area.columns ∧
      area.y1.toNat ≤ p.2 ∧ p.2 - area.y1.toNat < area.rows := by
  obtain ⟨hx1, hy1, hx, hy, -, -⟩ := hvalid
  obtain ⟨⟨hleft, hright⟩, htop, hbottom⟩ := h
  unfold Area.columns Area.rows
  omega

theorem Area.order_injective (hvalid : area.Valid) {p q : Fin width × Fin height}
    (hp : area.Contains p) (hq : area.Contains q) (h : area.order p = area.order q) : p = q := by
  obtain ⟨hpx, hpc, hpy, -⟩ := hp.bounds hvalid
  obtain ⟨hqx, hqc, hqy, -⟩ := hq.bounds hvalid
  have hpos : 0 < area.columns := by omega
  unfold Area.order at h
  have hrow := congrArg (· / area.columns) h
  have hcolumn := congrArg (· % area.columns) h
  simp only [Nat.mul_comm _ area.columns, Nat.mul_add_div hpos, Nat.mul_add_mod,
    Nat.div_eq_of_lt hpc, Nat.div_eq_of_lt hqc, Nat.mod_eq_of_lt hpc, Nat.mod_eq_of_lt hqc]
    at hrow hcolumn
  exact Prod.ext (Fin.ext (by omega)) (Fin.ext (by omega))

theorem Area.order_lt (hvalid : area.Valid) {p : Fin width × Fin height} (hp : area.Contains p) :
    area.order p < area.rows * area.columns := by
  obtain ⟨-, hcolumn, -, hrow⟩ := hp.bounds hvalid
  unfold Area.order
  calc (p.2 - area.y1.toNat) * area.columns + (p.1 - area.x1.toNat)
    _ < (p.2 - area.y1.toNat) * area.columns + area.columns := by omega
    _ = (p.2 - area.y1.toNat + 1) * area.columns := by ring
    _ ≤ area.rows * area.columns := Nat.mul_le_mul_right _ hrow

theorem Area.exists_pixel (hvalid : area.Valid) {r c : ℕ} (hr : r < area.rows)
    (hc : c < area.columns) : ∃ p : Fin width × Fin height, area.Contains p ∧
      p.1.val = area.x1.toNat + c ∧ p.2.val = area.y1.toNat + r ∧
      area.order p = r * area.columns + c := by
  obtain ⟨hx1, hy1, hx, hy, hwidth, hheight⟩ := hvalid
  unfold Area.rows at hr
  have hc' := hc
  unfold Area.columns at hc'
  refine ⟨(⟨area.x1.toNat + c, by omega⟩, ⟨area.y1.toNat + r, by omega⟩), ?_, rfl, rfl, ?_⟩
  · unfold Area.Contains
    dsimp only
    omega
  · unfold Area.order
    dsimp only
    rw [Nat.add_sub_cancel_left, Nat.add_sub_cancel_left]

end Areas

/-! ### The loops -/

/-- The first `k` pixels of the area are packed. -/
structure Packed (area : Area) (pixels : List UInt16) (frame : List UInt8) (k : ℕ) (s : Packing) :
    Prop where
  length : s.frame.length = frameBytes
  index : s.pixelIndex = k
  bits : ∀ p, pixelBit s.frame p =
    if area.Contains p ∧ area.order p < k then decide (0x7fff ≤ pixels.getD (area.order p) 0)
    else pixelBit frame p
  changed : s.changed = true ↔ s.frame ≠ frame

section Loops

variable {area : Area} {pixels : List UInt16} {frame : List UInt8} {s : Packing} {k : ℕ}

theorem Packed.pixel (hvalid : area.Valid) (hframe : frame.length = frameBytes)
    (h : Packed area pixels frame k s) {q : Fin width × Fin height} (hq : area.Contains q)
    (horder : area.order q = k) :
    Packed area pixels frame (k + 1) (packPixel pixels q.2 s q.1) := by
  have hbits := pixelBit_packPixel pixels h.length q
  have hlength : (packPixel pixels q.2 s q.1).frame.length = frameBytes :=
    List.length_set.trans h.length
  have hbefore : pixelBit s.frame q = pixelBit frame q := by
    rw [h.bits q, if_neg (by omega)]
  refine ⟨hlength, congrArg (· + 1) h.index, fun p => ?_, ?_⟩
  · rw [hbits p, h.index, h.bits p]
    by_cases hp : p = q
    · rw [if_pos hp, if_pos ⟨hp ▸ hq, by rw [hp]; omega⟩, hp, horder]
    · rw [if_neg hp]
      have hiff : (area.Contains p ∧ area.order p < k) ↔
          (area.Contains p ∧ area.order p < k + 1) := by
        constructor
        · exact fun hp => ⟨hp.1, by omega⟩
        · rintro ⟨hcontains, hlt⟩
          have hne : area.order p ≠ k := fun heq =>
            hp (Area.order_injective hvalid hcontains hq (heq.trans horder.symm))
          exact ⟨hcontains, by omega⟩
      simp only [hiff]
  · rw [changed_packPixel, h.changed, ← not_iff_not, not_or, not_not, not_not, not_not]
    constructor
    · rintro ⟨hsame, hpixel⟩
      refine eq_of_pixelBit hlength hframe fun p => ?_
      rw [hbits p]
      split_ifs with hp
      · rw [← hpixel, hp, hbefore]
      · rw [hsame]
    · intro hsame
      have hall : ∀ p, pixelBit s.frame p = pixelBit frame p := by
        intro p
        by_cases hp : p = q
        · rw [hp, hbefore]
        · rw [← hsame, hbits p, if_neg hp]
      refine ⟨eq_of_pixelBit h.length hframe hall, ?_⟩
      rw [hbefore, ← hsame, hbits q, if_pos rfl]

theorem Packed.row (hvalid : area.Valid) (hframe : frame.length = frameBytes) {r : ℕ}
    (hr : r < area.rows) (h : Packed area pixels frame (r * area.columns) s) :
    Packed area pixels frame ((r + 1) * area.columns)
      (packRow pixels area s (area.y1.toNat + r)) := by
  have hpixels : ∀ c ≤ area.columns, Packed area pixels frame (r * area.columns + c)
      ((List.range' area.x1.toNat c).foldl (packPixel pixels (area.y1.toNat + r)) s) := by
    intro c
    induction c with
    | zero => exact fun _ => h
    | succ c ih =>
      intro hc
      obtain ⟨q, hq, hx, hy, horder⟩ := Area.exists_pixel hvalid hr (show c < area.columns by omega)
      rw [List.range'_1_concat, List.foldl_append, List.foldl_cons, List.foldl_nil, ← hx, ← hy]
      have hpacked := ih (by omega)
      rw [← hy] at hpacked
      exact hpacked.pixel hvalid hframe hq horder
  rw [Nat.succ_mul]
  exact hpixels area.columns le_rfl

theorem Packed.rows (hvalid : area.Valid) (hframe : frame.length = frameBytes)
    (pixels : List UInt16) :
    Packed area pixels frame (area.rows * area.columns) (packRows pixels area frame) := by
  have hrows : ∀ r ≤ area.rows, Packed area pixels frame (r * area.columns)
      ((List.range' area.y1.toNat r).foldl (packRow pixels area) ⟨frame, false, 0⟩) := by
    intro r
    induction r with
    | zero =>
      intro _
      rw [Nat.zero_mul]
      exact ⟨hframe, rfl, fun p => (if_neg (by omega)).symm, by simp⟩
    | succ r ih =>
      intro hr
      rw [List.range'_1_concat, List.foldl_append]
      exact (ih (by omega)).row hvalid hframe (by omega)
  exact hrows area.rows le_rfl

end Loops

/-! ### Packing -/

/-- The calls that `deck_display_pack_rgb565` accepts. -/
def Packable (frame : List UInt8) (area : Area) (pixels : List UInt16) : Prop :=
  frame.length = frameBytes ∧ area.Valid ∧ pixels.length = area.columns * area.rows

section Pack

variable {frame : List UInt8} {area : Area} {pixels : List UInt16}

theorem packRgb565_of_packable (h : Packable frame area pixels) :
    packRgb565 frame area pixels =
      (if (packRows pixels area frame).changed then .changed else .unchanged,
        (packRows pixels area frame).frame) := by
  obtain ⟨hframe, ⟨hx1, hy1, hx, hy, hwidth, hheight⟩, hpixels⟩ := h
  unfold packRgb565
  rw [if_neg (by omega), if_neg (by omega)]

theorem packRgb565_of_not_packable (h : ¬Packable frame area pixels) :
    packRgb565 frame area pixels = (.invalidArgument, frame) := by
  unfold packRgb565
  split_ifs with harea hpixels
  · rfl
  · rfl
  · refine absurd ⟨?_, ?_, not_not.mp hpixels⟩ h
    · omega
    · unfold Area.Valid
      omega

theorem packRgb565_bits (h : Packable frame area pixels) (p : Fin width × Fin height) :
    pixelBit (packRgb565 frame area pixels).2 p =
      if area.Contains p then decide (0x7fff ≤ pixels.getD (area.order p) 0)
      else pixelBit frame p := by
  have hpacked := Packed.rows h.2.1 h.1 pixels
  rw [packRgb565_of_packable h]
  refine (hpacked.bits p).trans ?_
  by_cases hp : area.Contains p
  · rw [if_pos ⟨hp, Area.order_lt h.2.1 hp⟩, if_pos hp]
  · rw [if_neg fun hboth => hp hboth.1, if_neg hp]

theorem packRgb565_result (h : Packable frame area pixels) :
    (packRgb565 frame area pixels).1 =
      if (packRgb565 frame area pixels).2 = frame then .unchanged else .changed := by
  have hpacked := Packed.rows h.2.1 h.1 pixels
  rw [packRgb565_of_packable h]
  dsimp only
  by_cases hsame : (packRows pixels area frame).frame = frame
  · rw [if_neg (fun hchanged => hpacked.changed.mp hchanged hsame), if_pos hsame]
  · rw [if_pos (hpacked.changed.mpr hsame), if_neg hsame]

theorem packRgb565_eq (h : (packRgb565 frame area pixels).1 ≠ .changed) :
    (packRgb565 frame area pixels).2 = frame := by
  by_cases hpackable : Packable frame area pixels
  · have hresult := packRgb565_result hpackable
    by_contra hne
    rw [if_neg hne] at hresult
    exact h hresult
  · rw [packRgb565_of_not_packable hpackable]

theorem packRgb565_comm {other : Area} {others : List UInt16} (h : Packable frame area pixels)
    (hother : Packable frame other others) (hdisjoint : ∀ p, ¬(area.Contains p ∧ other.Contains p)) :
    (packRgb565 (packRgb565 frame area pixels).2 other others).2 =
      (packRgb565 (packRgb565 frame other others).2 area pixels).2 := by
  have hfirst : Packable (packRgb565 frame area pixels).2 other others :=
    ⟨(length_packRgb565 _ _ _).trans h.1, hother.2⟩
  have hsecond : Packable (packRgb565 frame other others).2 area pixels :=
    ⟨(length_packRgb565 _ _ _).trans h.1, h.2⟩
  refine eq_of_pixelBit ((length_packRgb565 _ _ _).trans hfirst.1)
    ((length_packRgb565 _ _ _).trans hsecond.1) fun p => ?_
  rw [packRgb565_bits hfirst, packRgb565_bits hsecond, packRgb565_bits h, packRgb565_bits hother]
  have hp := hdisjoint p
  by_cases harea : area.Contains p
  · rw [if_neg fun hboth => hp ⟨harea, hboth⟩, if_pos harea, if_pos harea]
  · rw [if_neg harea, if_neg harea]

end Pack

/-- **Display packing**: the bits of the pixels of the area take the colours of the array, every
other bit is left, the result tells whether the frame has changed, areas without a common pixel can
be packed in either order, and a call that is rejected leaves the frame. -/
theorem packRgb565_packs (frame : List UInt8) (area : Area) (pixels : List UInt16) :
    Function.Bijective pixelPosition ∧
    (packRgb565 frame area pixels).2.length = frame.length ∧
    (Packable frame area pixels →
      (∀ p, pixelBit (packRgb565 frame area pixels).2 p =
        if area.Contains p then decide (0x7fff ≤ pixels.getD (area.order p) 0)
        else pixelBit frame p) ∧
      ((packRgb565 frame area pixels).1 = .changed ↔ (packRgb565 frame area pixels).2 ≠ frame) ∧
      ((packRgb565 frame area pixels).1 = .unchanged ↔
        (packRgb565 frame area pixels).2 = frame) ∧
      ∀ (other : Area) (others : List UInt16), Packable frame other others →
        (∀ p, ¬(area.Contains p ∧ other.Contains p)) →
        (packRgb565 (packRgb565 frame area pixels).2 other others).2 =
          (packRgb565 (packRgb565 frame other others).2 area pixels).2) ∧
    (¬Packable frame area pixels →
      packRgb565 frame area pixels = (.invalidArgument, frame)) := by
  refine ⟨pixelPosition_bijective, length_packRgb565 _ _ _, fun h => ⟨packRgb565_bits h, ?_, ?_,
    fun other others hother hdisjoint => packRgb565_comm h hother hdisjoint⟩,
    packRgb565_of_not_packable⟩
  · rw [packRgb565_result h]
    by_cases hsame : (packRgb565 frame area pixels).2 = frame
    · simp [hsame]
    · simp [hsame]
  · rw [packRgb565_result h]
    by_cases hsame : (packRgb565 frame area pixels).2 = frame
    · simp [hsame]
    · simp [hsame]

theorem packable_first : Packable Frame.white.bytes ⟨0, 0, 0, 0⟩ [0] := by
  refine ⟨Frame.white.length_bytes, ?_, rfl⟩
  unfold Area.Valid
  decide

theorem pack_result (frame : Frame) (area : Area) (pixels : List UInt16) :
    (frame.pack area pixels).1 = (packRgb565 frame.bytes area pixels).1 := rfl

theorem pack_first : (Frame.white.pack ⟨0, 0, 0, 0⟩ [0]).1 = .changed := by
  rw [pack_result, packRgb565_result packable_first, if_neg]
  intro hsame
  have hbit := packRgb565_bits packable_first (⟨0, by decide⟩, ⟨0, by decide⟩)
  rw [hsame] at hbit
  have hwhite : pixelBit Frame.white.bytes (⟨0, by decide⟩, ⟨0, by decide⟩) = true := by
    unfold pixelBit bitAt Frame.white
    rw [List.getD_replicate _ (Fin.isLt _)]
    rfl
  exact absurd (hwhite.symm.trans hbit) (by decide)

/-- The first pixel, in black. -/
theorem packRgb565_packs_first :
    pixelBit (packRgb565 Frame.white.bytes ⟨0, 0, 0, 0⟩ [0]).2 (⟨0, by decide⟩, ⟨0, by decide⟩) =
      false := by
  obtain ⟨-, -, hpacks, -⟩ := packRgb565_packs Frame.white.bytes ⟨0, 0, 0, 0⟩ [0]
  rw [(hpacks packable_first).1]
  rfl

end RlcdDeck.Display
