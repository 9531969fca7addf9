import RvEmu.Native.Virtio

/-!
# The queue registers of the virtio device

A write to a register of the queue window has to be read back, and to leave the other
registers alone. The write divides `0x34` instead of the difference, and stores the value
at another word than the one that is read.

## Key results

- `virtioMmioBlkW_queue`: where a write in the window goes
- `queueReadsBack_iff`: which writes are read back
-/

namespace RvEmu

/-- The offsets of the queue registers. -/
structure QueueWindow (offset : BitVec 64) : Prop where
  aligned : offset.toNat % 4 = 0
  window : (0x34 ≤ offset.toNat ∧ offset.toNat ≤ 0x4c) ∨
    (0x74 ≤ offset.toNat ∧ offset.toNat ≤ 0xa4)

/-- The word of the first queue that a read uses. -/
def queueReadIndex (offset : BitVec 64) : Nat := (offset.toNat - 0x34) / 4

/-- The word of the first queue that a write uses. -/
def queueWriteIndex (offset : BitVec 64) : Nat := offset.toNat - 0x34 / 4

/-- The write stays inside the first queue, is read back, and leaves the other registers of
    the window alone. -/
structure QueueReadsBack (offset : BitVec 64) (data : BitVec 32) (s : VirtioState) : Prop where
  inside : queueWriteIndex offset < virtqueueWords
  readBack : virtioMmioBlkR offset (virtioMmioBlkW offset data s) = data
  others : ∀ other, QueueWindow other → other ≠ offset →
    virtioMmioBlkR other (virtioMmioBlkW offset data s) = virtioMmioBlkR other s

section Window

variable {offset : BitVec 64} {s : VirtioState}

/-- The branches that an offset of the window takes. -/
theorem QueueWindow.branches (h : QueueWindow offset) :
    ¬ offset ≤ 0x30 ∧ ¬ (0x50 ≤ offset ∧ offset ≤ 0x70) ∧ (0x34 ≤ offset ∧ offset ≤ 0xa4) ∧
      ¬ offset ≥ 0x100 := by
  have hwindow := h.window
  have hle : ∀ k : Nat, k < 2 ^ 64 → (BitVec.ofNat 64 k ≤ offset ↔ k ≤ offset.toNat) ∧
      (offset ≤ BitVec.ofNat 64 k ↔ offset.toNat ≤ k) := by
    intro k hk
    rw [BitVec.le_def, BitVec.le_def, BitVec.toNat_ofNat, Nat.mod_eq_of_lt hk]
    exact ⟨Iff.rfl, Iff.rfl⟩
  have h30 : offset ≤ 0x30 ↔ offset.toNat ≤ 0x30 := (hle 0x30 (by decide)).2
  have h34 : 0x34 ≤ offset ↔ 0x34 ≤ offset.toNat := (hle 0x34 (by decide)).1
  have h50 : 0x50 ≤ offset ↔ 0x50 ≤ offset.toNat := (hle 0x50 (by decide)).1
  have h70 : offset ≤ 0x70 ↔ offset.toNat ≤ 0x70 := (hle 0x70 (by decide)).2
  have ha4 : offset ≤ 0xa4 ↔ offset.toNat ≤ 0xa4 := (hle 0xa4 (by decide)).2
  have h100 : offset ≥ 0x100 ↔ 0x100 ≤ offset.toNat := (hle 0x100 (by decide)).1
  rw [h30, h34, h50, h70, ha4, h100]
  omega

/-- A read in the window, of the first queue. -/
theorem virtioMmioBlkR_queue (h : QueueWindow offset) (hsel : s.queuesel = 0) :
    virtioMmioBlkR offset s = s.queues (queueReadIndex offset) := by
  obtain ⟨hlow, hstatus, hqueue, -⟩ := h.branches
  have hsub : ((offset - 0x34) / 4).toNat = queueReadIndex offset := by
    have hwindow := h.window
    have hlt := offset.isLt
    rw [BitVec.toNat_udiv, BitVec.toNat_sub]
    show (2 ^ 64 - 0x34 + offset.toNat) % 2 ^ 64 / 4 = (offset.toNat - 0x34) / 4
    omega
  unfold virtioMmioBlkR
  rw [if_neg hlow, if_neg hstatus, if_pos hqueue, hsel, hsub]
  exact congrArg s.queues (Nat.zero_add _)

/-- A write in the window, to the first queue. -/
theorem virtioMmioBlkW_queue (h : QueueWindow offset) (hsel : s.queuesel = 0) (data : BitVec 32) :
    virtioMmioBlkW offset data s =
      { s with queues := Function.update s.queues (queueWriteIndex offset) data } := by
  obtain ⟨hlow, hstatus, hqueue, hconfig⟩ := h.branches
  have hsub : (offset - 0x34 / 4).toNat = queueWriteIndex offset := by
    have hwindow := h.window
    have hlt := offset.isLt
    have hquot : (0x34 / 4 : BitVec 64).toNat = 13 := by decide
    rw [BitVec.toNat_sub, hquot]
    show (2 ^ 64 - 13 + offset.toNat) % 2 ^ 64 = offset.toNat - 13
    omega
  unfold virtioMmioBlkW
  dsimp only
  simp only [if_neg hlow, if_neg hstatus, if_pos hqueue, if_neg hconfig, hsel, hsub]
  have hfirst : virtqueueWords * (0 : BitVec 32).toNat + queueWriteIndex offset =
      queueWriteIndex offset := Nat.zero_add _
  rw [hfirst]

/-- No read of the window uses a word that a write of the window uses. -/
theorem queueReadIndex_ne {other : BitVec 64} (h : QueueWindow offset) (ho : QueueWindow other) :
    queueReadIndex other ≠ queueWriteIndex offset := by
  have hwindow := h.window
  have hother := ho.window
  unfold queueReadIndex queueWriteIndex
  omega

/-- A write of the window changes no read of the window. -/
theorem virtioMmioBlkR_write {other : BitVec 64} (h : QueueWindow offset)
    (ho : QueueWindow other) (hsel : s.queuesel = 0) (data : BitVec 32) :
    virtioMmioBlkR other (virtioMmioBlkW offset data s) = virtioMmioBlkR other s := by
  have hsel' : VirtioState.queuesel
      { s with queues := Function.update s.queues (queueWriteIndex offset) data } = 0 := hsel
  rw [virtioMmioBlkW_queue h hsel, virtioMmioBlkR_queue ho hsel, virtioMmioBlkR_queue ho hsel']
  exact Function.update_of_ne (queueReadIndex_ne h ho) _ _

end Window

/-- For every offset of the window, value and state with the first queue selected, the write
    is read back exactly if the offset is at most 0x44 and the register holds the value
    already. -/
theorem queueReadsBack_iff (offset : BitVec 64) (hoffset : QueueWindow offset)
    (data : BitVec 32) (s : VirtioState) (hsel : s.queuesel = 0) :
    QueueReadsBack offset data s ↔
      offset.toNat ≤ 0x44 ∧ s.queues (queueReadIndex offset) = data := by
  have hinside : queueWriteIndex offset < virtqueueWords ↔ offset.toNat ≤ 0x44 := by
    have haligned := hoffset.aligned
    have hwindow := hoffset.window
    unfold queueWriteIndex virtqueueWords
    omega
  have hread : virtioMmioBlkR offset (virtioMmioBlkW offset data s) =
      s.queues (queueReadIndex offset) :=
    (virtioMmioBlkR_write hoffset hoffset hsel data).trans (virtioMmioBlkR_queue hoffset hsel)
  constructor
  · intro h
    exact ⟨hinside.mp h.inside, hread.symm.trans h.readBack⟩
  · rintro ⟨hle, hholds⟩
    exact ⟨hinside.mpr hle, hread.trans hholds,
      fun other hother _ => virtioMmioBlkR_write hoffset hother hsel data⟩

/-- The device with `queuenum` at 8. -/
private def eightQueued : VirtioState :=
  { virtioMmioBlkInit with queues := Function.update virtioMmioBlkInit.queues 1 8 }

/-- `queuenum` is set to 8 again. -/
theorem queueReadsBack_iff_again : QueueReadsBack 0x38 8 eightQueued :=
  (queueReadsBack_iff 0x38 ⟨by decide, by decide⟩ 8 eightQueued rfl).mpr ⟨by decide, rfl⟩

/-- `queuenum` of the device after its start is set to 8. -/
theorem queueNum_lost : ¬ QueueReadsBack 0x38 8 virtioMmioBlkInit := by
  intro h
  exact absurd h.readBack (by decide)

end RvEmu
