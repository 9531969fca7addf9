import RvEmu.Native.Cycle
import RvEmu.Spec.Access

/-!
# The end of RAM

`mem_fetch` and `mem_store` compare the first byte of an access with the end of RAM, and the
accesses to physical memory compare nothing.
-/

namespace RvEmu

variable {δ : Type}

/-- The address behind RAM. -/
def ramEnd (env : Env δ) : Nat := 0x80000000 + env.machMemSize.toNat

/-- An access to RAM that is not refused has all of its bytes in front of the end. -/
structure StaysInRam (env : Env δ) (w : Width) (s : Sys δ) (a data : BitVec 64) : Prop where
  fetch : 0x80000000 ≤ a → (memFetch env w s a).2.hs.memStatus = false →
    a.toNat + w.bytes ≤ ramEnd env
  store : 0x80000000 ≤ a → (memStore env w s a data).hs.memStatus = false →
    a.toNat + w.bytes ≤ ramEnd env

/-- The access starts in RAM, in the last `w.bytes - 1` bytes in front of the end. -/
structure CrossesEnd (env : Env δ) (w : Width) (a : BitVec 64) : Prop where
  ram : 0x80000000 ≤ a
  starts : outOfRange env a = false
  ends : ramEnd env < a.toNat + w.bytes

/-- A single byte does not cross the end. -/
theorem not_crossesEnd_u8 {env : Env δ} {a : BitVec 64} : ¬ CrossesEnd env .u8 a := by
  intro h
  have hlt : a < 0x80000000 + env.machMemSize := by
    simpa using (Bool.or_eq_false_iff.mp h.starts).2
  have hnat : a.toNat < (0x80000000 + env.machMemSize.toNat) % 2 ^ 64 :=
    Nat.lt_of_lt_of_eq (BitVec.lt_def.mp hlt) (BitVec.toNat_add _ _)
  have hends : ramEnd env < a.toNat + 1 := h.ends
  unfold ramEnd at hends
  omega

/-- An access to RAM stays there unless it crosses the end and PMP permits it. -/
theorem ram_bounds_iff (env : Env δ) (w : Width) (s : Sys δ) (a data : BitVec 64) :
    StaysInRam env w s a data ↔
      ¬ (CrossesEnd env w a ∧
        (pmpRefusesFetch w s.hs a = false ∨ pmpRefusesStore w s.hs a = false)) := by
  have hfetch := (memFetch_flags env w s a).1
  have hstore := (memStore_flags env w s a data).1
  constructor
  · rintro h ⟨hc, hpmp⟩
    -- the first byte is in range and PMP permits the access: the flag stays clear
    have hends := hc.ends
    rcases hpmp with hpmp | hpmp
    · rw [hc.starts, hpmp] at hfetch
      exact absurd (h.fetch hc.ram hfetch) (by omega)
    · rw [hc.starts, hpmp] at hstore
      exact absurd (h.store hc.ram hstore) (by omega)
  · intro h
    -- where the flag stays clear, both tests have passed
    constructor
    · intro ha hok
      obtain ⟨hrange, hpmp⟩ := Bool.or_eq_false_iff.mp (hfetch.symm.trans hok)
      by_contra hends
      exact h ⟨⟨ha, hrange, Nat.lt_of_not_le hends⟩, .inl hpmp⟩
    · intro ha hok
      obtain ⟨hrange, hpmp⟩ := Bool.or_eq_false_iff.mp (hstore.symm.trans hok)
      by_contra hends
      exact h ⟨⟨ha, hrange, Nat.lt_of_not_le hends⟩, .inr hpmp⟩

/-- M-mode with the pc in the last halfword of RAM, which holds `c.nop`. -/
private def lastHalfword : Sys Unit :=
  ⟨{ resetState 0 with pc := 0x9FFFFFFE },
    { Bus.inert with mainMem := fun a => if a = 0x9FFFFFFE then 1 else 0 }⟩

/-- The instruction is fetched without a fault, with the two bytes behind RAM. -/
theorem fetch_crosses_end :
    (fetch Env.inert lastHalfword).1 = .noexc ∧
    ¬ ∀ (w : Width) (s : Sys Unit) (a data : BitVec 64), StaysInRam Env.inert w s a data := by
  refine ⟨by decide +kernel, fun h => ?_⟩
  have hfetched : (memFetch Env.inert .u32 (lastHalfword.setMemStatus false)
      lastHalfword.hs.pc).2.hs.memStatus = false := by decide +kernel
  exact absurd ((h .u32 (lastHalfword.setMemStatus false) lastHalfword.hs.pc 0).fetch (by decide)
    hfetched) (by decide)

end RvEmu
