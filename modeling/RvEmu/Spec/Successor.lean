import RvEmu.Spec.Run

/-!
# The halfword behind a compressed instruction

`fetch` reads 32 bits wherever it is. For a compressed instruction the upper half belongs to
the next instruction; it is buffered, and does not matter otherwise, unless the lower half
is zero.
-/

namespace RvEmu

variable {δ : Type} (env : Env δ)

/-- The 32 bits at the pc, as `fetch` reads them. -/
def wordAtPc (s : Sys δ) : BitVec 64 × Sys δ :=
  virtMemFetch env .u32 (s.setMemStatus false) s.hs.pc

/-- `fetch` reads the word `w` from memory. -/
structure FetchesWord (s : Sys δ) (w : BitVec 32) : Prop where
  instbuf : s.hs.instbuf = 0
  word : (wordAtPc env s).1.setWidth 32 = w
  memStatus : (wordAtPc env s).2.hs.memStatus = false
  pageFault : (wordAtPc env s).2.hs.pageFault = false

/-- What `fetch` finds out: the exception, `hs.inst` and `hs.inst_len`. -/
def fetchResult (s : Sys δ) : HartException × BitVec 32 × BitVec 8 :=
  ((fetch env s).1, (fetch env s).2.hs.inst, (fetch env s).2.hs.instLen)

/-- Two fetches of compressed instructions that differ in the halfword behind find out the
    same, and reject an all-zero halfword. -/
structure SuccessorIgnored (s₁ s₂ : Sys δ) (half : BitVec 16) : Prop where
  same : fetchResult env s₁ = fetchResult env s₂
  zero : half = 0 → (fetch env s₁).1 = .illinst ∧ (fetch env s₂).1 = .illinst

variable {env}

/-- A fetch goes on with the word at the pc. -/
theorem fetch_of_word {s : Sys δ} {w : BitVec 32} (h : FetchesWord env s w) :
    fetch env s = fetchLength ((wordAtPc env s).2.setHs { (wordAtPc env s).2.hs with inst := w }) := by
  have hinst : fetchInst env s =
      (wordAtPc env s).2.setHs { (wordAtPc env s).2.hs with inst := w } := by
    rw [← h.word]
    exact if_pos h.instbuf
  have hno : handleMemError .iafault .ipfault (fetchInst env s).hs.pc (fetchInst env s) = none := by
    rw [handleMemError, hinst]
    simp only [Sys.setHs, h.memStatus, h.pageFault, Bool.false_eq_true, ↓reduceIte]
  unfold fetch
  simp only [hno]
  rw [hinst]

/-- A trap keeps the instruction. -/
theorem createException_inst (hs : HartState) (he : HartException) (tval : BitVec 64) :
    (createException hs he tval).2.inst = hs.inst ∧
      (createException hs he tval).2.instLen = hs.instLen := by
  rcases createException_cases hs he tval with h | ⟨-, -, h⟩ | ⟨-, h⟩ <;> rw [h] <;> exact ⟨rfl, rfl⟩

/-- The length test on a word that starts with a compressed instruction. -/
theorem fetchLength_compressed {u : Sys δ} (hrvc : u.hs.inst &&& 0b11 ≠ 0b11) :
    ((fetchLength u).1, (fetchLength u).2.hs.inst, (fetchLength u).2.hs.instLen) =
      if u.hs.inst = 0 then (.illinst, 0, 0) else (.noexc, u.hs.inst &&& 0xFFFF, 16) := by
  have hones : u.hs.inst ≠ 0xffffffff := by
    intro h
    rw [h] at hrvc
    exact hrvc (by decide)
  by_cases hw : u.hs.inst = 0
  -- the trap keeps the length 0 that `fetch` has set
  · have hlen : fetchLength u =
        (u.setHs { u.hs with instLen := 0 }).createException .illinst (u.hs.inst.signExtend 64) :=
      if_pos (.inl hw)
    obtain ⟨hinst, hlen0⟩ :=
      createException_inst { u.hs with instLen := 0 } .illinst (u.hs.inst.signExtend 64)
    rw [hlen, if_pos hw, createException_fst _ _ rfl]
    exact congrArg (Prod.mk _) (Prod.ext (hinst.trans hw) hlen0)
  · have hillegal : ¬ (u.hs.inst = 0 ∨ u.hs.inst = 0xffffffff) := not_or.mpr ⟨hw, hones⟩
    rw [fetchLength, if_neg hillegal, if_pos hrvc, if_neg hw]
    rfl

/-- A compressed instruction is fetched, unless the word is zero. -/
theorem fetchResult_compressed {s : Sys δ} {w : BitVec 32} (h : FetchesWord env s w)
    (hrvc : w &&& 0b11 ≠ 0b11) :
    fetchResult env s = if w = 0 then (.illinst, 0, 0) else (.noexc, w &&& 0xFFFF, 16) := by
  unfold fetchResult
  rw [fetch_of_word h]
  exact fetchLength_compressed hrvc

/-- So it is illegal if and only if the word is zero. -/
theorem fetch_illinst_iff {s : Sys δ} {w : BitVec 32} (h : FetchesWord env s w)
    (hrvc : w &&& 0b11 ≠ 0b11) : (fetch env s).1 = .illinst ↔ w = 0 := by
  have hexc := congrArg Prod.fst (fetchResult_compressed h hrvc)
  constructor
  · intro hill
    by_contra hw
    rw [if_neg hw] at hexc
    cases hill.symm.trans hexc
  · intro hw
    rw [if_pos hw] at hexc
    exact hexc

/-- Words with the same lower half look the same to a mask of it. -/
theorem and_lowHalf {w₁ w₂ : BitVec 32} (h : w₂.setWidth 16 = w₁.setWidth 16) (k : BitVec 16) :
    w₂ &&& k.setWidth 32 = w₁ &&& k.setWidth 32 := by
  rw [BitVec.and_setWidth, BitVec.and_setWidth, h]

/-- The halfword behind a compressed instruction is ignored but for an all-zero lower half:
    `fetch` rejects it only as a part of an all-zero word. -/
theorem successor_ignored_iff {hs : HartState} {b₁ b₂ : Bus δ} {w₁ w₂ : BitVec 32}
    (h₁ : FetchesWord env ⟨hs, b₁⟩ w₁) (h₂ : FetchesWord env ⟨hs, b₂⟩ w₂)
    (hhalf : w₂.setWidth 16 = w₁.setWidth 16) (hrvc : w₁ &&& 0b11 ≠ 0b11) :
    SuccessorIgnored env ⟨hs, b₁⟩ ⟨hs, b₂⟩ (w₁.setWidth 16) ↔
      (w₁.setWidth 16 = 0 → w₁ = 0 ∧ w₂ = 0) := by
  have hrvc₂ : w₂ &&& 0b11 ≠ 0b11 := (and_lowHalf hhalf 0b11).trans_ne hrvc
  have hill₁ := fetch_illinst_iff h₁ hrvc
  have hill₂ := fetch_illinst_iff h₂ hrvc₂
  constructor
  · intro h hzero
    exact ⟨hill₁.mp (h.zero hzero).1, hill₂.mp (h.zero hzero).2⟩
  · intro h
    refine ⟨?_, fun hzero => ⟨hill₁.mpr (h hzero).1, hill₂.mpr (h hzero).2⟩⟩
    rw [fetchResult_compressed h₁ hrvc, fetchResult_compressed h₂ hrvc₂]
    by_cases hzero : w₁.setWidth 16 = 0
    · rw [if_pos (h hzero).1, if_pos (h hzero).2]
    · -- neither word is zero, and the lower half is all that is kept
      have hw₁ : w₁ ≠ 0 := fun hw => hzero (hw ▸ rfl)
      have hw₂ : w₂ ≠ 0 := fun hw => hzero (hhalf.symm.trans (hw ▸ rfl))
      have hkept : w₂ &&& 0xFFFF = w₁ &&& 0xFFFF := and_lowHalf hhalf 0xFFFF
      rw [if_neg hw₁, if_neg hw₂, hkept]

/-- M-mode with the pc at the start of RAM. -/
private def atRam : HartState := { resetState 0 with pc := 0x80000000 }

/-- The two words: with `C.NOP` behind it … -/
private theorem fetchesWord_nop : FetchesWord Env.inert ⟨atRam, programBus [0x00010001]⟩ 0x00010001 :=
  ⟨rfl, by decide +kernel, by decide +kernel, by decide +kernel⟩

/-- … and with nothing. -/
private theorem fetchesWord_last : FetchesWord Env.inert ⟨atRam, programBus [1]⟩ 1 :=
  ⟨rfl, by decide +kernel, by decide +kernel, by decide +kernel⟩

/-- `c.nop`, with another one behind it and with zeros behind it. -/
theorem successor_ignored_nop :
    SuccessorIgnored Env.inert ⟨atRam, programBus [0x00010001]⟩ ⟨atRam, programBus [1]⟩ 1 :=
  (successor_ignored_iff fetchesWord_nop fetchesWord_last (by decide) (by decide)).mpr
    fun h => absurd h (by decide)

/-- An all-zero halfword is rejected if zeros follow it, and accepted in front of `c.nop`. -/
theorem zero_halfword_accepted :
    ¬ ∀ (hs : HartState) (b₁ b₂ : Bus Unit) (w₁ w₂ : BitVec 32),
      FetchesWord Env.inert ⟨hs, b₁⟩ w₁ → FetchesWord Env.inert ⟨hs, b₂⟩ w₂ →
      w₂.setWidth 16 = w₁.setWidth 16 → w₁ &&& 0b11 ≠ 0b11 →
      SuccessorIgnored Env.inert ⟨hs, b₁⟩ ⟨hs, b₂⟩ (w₁.setWidth 16) := by
  intro h
  have h₁ : FetchesWord Env.inert ⟨atRam, programBus [0]⟩ 0 :=
    ⟨rfl, by decide +kernel, by decide +kernel, by decide +kernel⟩
  have h₂ : FetchesWord Env.inert ⟨atRam, programBus [0x00010000]⟩ 0x00010000 :=
    ⟨rfl, by decide +kernel, by decide +kernel, by decide +kernel⟩
  have hsame := congrArg Prod.fst (h atRam _ _ _ _ h₁ h₂ (by decide) (by decide)).same
  have hne : (fetchResult Env.inert ⟨atRam, programBus [0]⟩).1 ≠
      (fetchResult Env.inert ⟨atRam, programBus [0x00010000]⟩).1 := by decide +kernel
  exact hne hsame

end RvEmu
