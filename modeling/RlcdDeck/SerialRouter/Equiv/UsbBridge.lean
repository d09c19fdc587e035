import RlcdDeck.SerialRouter.Equiv.Isolation
import RlcdDeck.SerialRouter.UsbBridge

/-!
# The USB bridge conserves the output

What the driver has accepted and what is left of the pending block are together the blocks that were
taken (`Conserved.run`), whatever the driver accepts and whenever it is disconnected.
-/

namespace RlcdDeck.SerialRouter

/-! ### Blocks -/

/-- The data of a block. -/
def RoutedBlock.data (block : RoutedBlock) : List UInt8 := block.bytes.take block.length

theorem RoutedBlock.length_data_le (block : RoutedBlock) : block.data.length ≤ block.length :=
  List.length_take_le _ _

theorem length_take_usb {r : Router} (h : Inv r) {block : RoutedBlock}
    (htake : (take r .usb).1 = .ok block) : 0 < block.length ∧ block.length ≤ blockBytes := by
  unfold take at htake
  dsimp only at htake
  split at htake
  · cases htake
  · split at htake
    · cases htake
    · rename_i hempty
      obtain rfl := CopyResult.ok.inj htake
      exact h.lengths .usb _ (peek_mem_contents (Nat.pos_of_ne_zero hempty))

theorem inv_takeUsbOutput {r : Router} (h : Inv r) (locked : Bool) : Inv (takeUsbOutput locked r).2 := by
  cases locked with
  | true => exact (take_spec h .usb).1
  | false => exact h

theorem length_takeUsbOutput {r : Router} (h : Inv r) {locked : Bool} {block : RoutedBlock}
    (htake : (takeUsbOutput locked r).1 = .ok block) : 0 < block.length ∧ block.length ≤ blockBytes := by
  cases locked with
  | true => exact length_take_usb h htake
  | false => cases htake

/-! ### The pending block -/

namespace UsbBridge

/-- What is left of the pending block. -/
def unsent (b : UsbBridge) : List UInt8 :=
  if b.hasPendingOutput then b.pendingOutput.data.drop b.pendingOffset else []

/-- Nothing of the next block is sent before it is taken, and a pending block is not sent whole. -/
structure Valid (b : UsbBridge) : Prop where
  idle : b.hasPendingOutput = false → b.pendingOffset = 0
  pending : b.hasPendingOutput = true →
    b.pendingOffset < b.pendingOutput.length ∧ b.pendingOutput.length ≤ blockBytes

theorem Valid.remaining {b : UsbBridge} (h : b.Valid) (hpending : b.hasPendingOutput = true) :
    b.remaining = b.pendingOutput.length - b.pendingOffset := by
  obtain ⟨hlt, hle⟩ := h.pending hpending
  unfold blockBytes at hle
  unfold UsbBridge.remaining subSize
  omega

theorem Valid.offered {b : UsbBridge} (h : b.Valid) (hpending : b.hasPendingOutput = true) :
    b.offered = b.unsent := by
  unfold UsbBridge.offered unsent RoutedBlock.data
  rw [if_pos hpending, h.remaining hpending, List.drop_take]

theorem valid_clearPendingOutput (b : UsbBridge) :
    b.clearPendingOutput.Valid ∧ b.clearPendingOutput.unsent = [] :=
  ⟨⟨fun _ => rfl, fun h => by cases h⟩, rfl⟩

theorem Valid.wrote {b : UsbBridge} (h : b.Valid) (hpending : b.hasPendingOutput = true) (written : ℤ) :
    (b.wrote written).2.Valid ∧
      b.unsent =
        (if written < 0 ∨ b.remaining < written then [] else b.offered.take written.toNat) ++
          (b.wrote written).2.unsent := by
  obtain ⟨hlt, hle⟩ := h.pending hpending
  have hremaining := h.remaining hpending
  have hoffered := h.offered hpending
  unfold UsbBridge.wrote
  by_cases hfailed : written < 0 ∨ b.remaining < written
  · rw [if_pos hfailed, if_pos hfailed]
    exact ⟨⟨h.idle, h.pending⟩, rfl⟩
  · rw [if_neg hfailed, if_neg hfailed]
    by_cases hzero : written = 0
    · rw [if_pos hzero, hzero]
      exact ⟨⟨h.idle, h.pending⟩, rfl⟩
    · rw [if_neg hzero, hoffered]
      dsimp only
      have hunsent : b.unsent = b.pendingOutput.data.drop b.pendingOffset := if_pos hpending
      by_cases hwhole : b.pendingOffset + written.toNat = b.pendingOutput.length
      · rw [if_pos hwhole]
        refine ⟨(valid_clearPendingOutput _).1, ?_⟩
        -- the last byte is sent
        have hlength : b.unsent.length ≤ written.toNat := by
          have := b.pendingOutput.length_data_le
          rw [hunsent, List.length_drop]
          omega
        rw [List.take_of_length_le hlength, (valid_clearPendingOutput _).2, List.append_nil]
      · rw [if_neg hwhole]
        refine ⟨⟨fun hidle => ?_, fun _ => ?_⟩, ?_⟩
        · rw [hpending] at hidle
          cases hidle
        · show b.pendingOffset + written.toNat < b.pendingOutput.length ∧
            b.pendingOutput.length ≤ blockBytes
          omega
        · have hrest : UsbBridge.unsent { b with pendingOffset := b.pendingOffset + written.toNat } =
              b.unsent.drop written.toNat := by
            rw [hunsent, List.drop_drop]
            exact if_pos hpending
          rw [hrest, List.take_append_drop]

end UsbBridge

/-! ### Runs -/

/-- What was sent and what is left are the blocks that were taken. -/
structure UsbPath.Conserved (path : UsbPath) : Prop where
  router : Inv path.router
  bridge : path.bridge.Valid
  bytes : path.taken.flatMap RoutedBlock.data = path.usb ++ path.bridge.unsent

namespace UsbPath

variable {path : UsbPath}

theorem Conserved.write (h : path.Conserved) (hpending : path.bridge.hasPendingOutput = true)
    (written : ℤ) : (path.write written).2.Conserved := by
  obtain ⟨hvalid, hunsent⟩ := h.bridge.wrote hpending written
  refine ⟨h.router, hvalid, ?_⟩
  show path.taken.flatMap RoutedBlock.data = (path.usb ++ _) ++ _
  rw [h.bytes, List.append_assoc]
  exact congrArg (path.usb ++ ·) hunsent

theorem Conserved.pumpOutput (h : path.Conserved) (locked : Bool) (written : ℤ) :
    (path.pumpOutput locked written).2.Conserved := by
  unfold UsbPath.pumpOutput
  split_ifs with hconnected hpending
  · exact ⟨h.router, ⟨h.bridge.idle, h.bridge.pending⟩, h.bytes⟩
  · exact h.write hpending written
  · rw [Bool.not_eq_true] at hpending
    have hrouter := inv_takeUsbOutput h.router locked
    have hunsent : path.bridge.unsent = [] := if_neg (by simp [hpending])
    have hbytes := h.bytes
    rw [hunsent, List.append_nil] at hbytes
    dsimp only
    cases hcopied : (takeUsbOutput locked path.router).1 with
    | empty => exact ⟨hrouter, h.bridge, h.bytes⟩
    | ok block =>
      have hlength := length_takeUsbOutput h.router hcopied
      have hload : path.bridge.load (.ok block) =
          (none, { path.bridge with pendingOutput := block, hasPendingOutput := true }) :=
        if_neg (by omega)
      rw [hload]
      refine Conserved.write ⟨hrouter, ⟨fun hidle => (by cases hidle), fun _ => ?_⟩, ?_⟩ rfl written
      · show path.bridge.pendingOffset < block.length ∧ block.length ≤ blockBytes
        rw [h.bridge.idle hpending]
        exact hlength
      · show (path.taken ++ [block]).flatMap RoutedBlock.data =
          path.usb ++ block.data.drop path.bridge.pendingOffset
        rw [List.flatMap_append, hbytes, h.bridge.idle hpending, List.drop_zero]
        simp
    | gap block =>
      refine ⟨hrouter, (UsbBridge.valid_clearPendingOutput _).1, ?_⟩
      show path.taken.flatMap RoutedBlock.data = path.usb ++ []
      rw [List.append_nil, hbytes]
    | invalid =>
      refine ⟨hrouter, (UsbBridge.valid_clearPendingOutput _).1, ?_⟩
      show path.taken.flatMap RoutedBlock.data = path.usb ++ []
      rw [List.append_nil, hbytes]

theorem Conserved.step (h : path.Conserved) (op : UsbOp) : (path.step op).Conserved := by
  cases op with
  | connect => exact ⟨h.router, h.bridge, h.bytes⟩
  | disconnect => exact ⟨h.router, h.bridge, h.bytes⟩
  | route op => exact ⟨(perform_solo h.router op).1, h.bridge, h.bytes⟩
  | pump locked written => exact h.pumpOutput locked written

/-- **A run conserves the output.** -/
theorem Conserved.run (h : path.Conserved) (ops : List UsbOp) : (path.run ops).Conserved := by
  induction ops generalizing path with
  | nil => exact h
  | cons op ops ih => exact ih (h.step op)

theorem conserved_create {config : RouterConfig} {allocated : Bool} {r : Router}
    (h : create config allocated = some r) : Conserved { router := r } :=
  ⟨inv_create h, ⟨fun _ => rfl, fun hpending => by cases hpending⟩, rfl⟩

end UsbPath

/-- The bytes that the driver has accepted are always the first bytes of the blocks that were taken; the
others are those that are left of the pending block. -/
theorem usb_output_conserved {config : RouterConfig} {allocated : Bool} {r : Router}
    (h : create config allocated = some r) (ops : List UsbOp) :
    let path := UsbPath.run { router := r } ops
    path.usb <+: path.taken.flatMap RoutedBlock.data ∧
      path.taken.flatMap RoutedBlock.data = path.usb ++ path.bridge.unsent := by
  intro path
  have hbytes := ((UsbPath.conserved_create h).run ops).bytes
  exact ⟨⟨_, hbytes.symm⟩, hbytes⟩

/-- A block is resumed after a write of some of its bytes, a disconnect and an eviction. -/
theorem usb_output_conserved_resumed :
    ∃ r, create ⟨7, 512, 41⟩ true = some r ∧
      let path := UsbPath.run { router := r }
        [.route (.register ⟨.usb, 256, false⟩ true), .connect, .route (.submit ⟨1, [5, 6, 7]⟩), .pump true 2,
          .route (.submit ⟨2, [8]⟩), .disconnect, .pump true 1, .connect, .pump true 0,
          .route (.submit ⟨3, [9]⟩), .pump true 1, .pump true 1]
      path.usb = [5, 6, 7, 9] ∧
        path.usb <+: path.taken.flatMap RoutedBlock.data ∧
        path.taken.flatMap RoutedBlock.data = path.usb ++ path.bridge.unsent :=
  ⟨_, rfl, by decide +kernel, @usb_output_conserved ⟨7, 512, 41⟩ true _ rfl _⟩

end RlcdDeck.SerialRouter
