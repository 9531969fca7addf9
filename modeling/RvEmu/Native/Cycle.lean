import RvEmu.Native.Execute

/-!
# The hart cycle

`fetch` and `cycle` (`cpu.cpp`).
-/

namespace RvEmu

variable {δ : Type}

/-- `fetch` from the instruction length test on. -/
def fetchLength (s : Sys δ) : HartException × Sys δ :=
  let inst := s.hs.inst
  -- all zeros or ones, guaranteed to be illegal in the spec
  if inst = 0 ∨ inst = 0xffffffff then
    (s.setHs { s.hs with instLen := 0 }).createException .illinst (inst.signExtend 64)
  else if inst &&& 0b11 ≠ 0b11 then
    -- buffer the instruction only if it's actually an RVC instruction
    let instbuf := if inst &&& 0x30000 ≠ 0x30000 then (inst.sshiftRight 16).setWidth 16
      else s.hs.instbuf
    (.noexc, s.setHs { s.hs with instLen := 16, instbuf := instbuf, inst := inst &&& 0xFFFF })
  else if inst &&& 0b11100 ≠ 0b11100 then (.noexc, s.setHs { s.hs with instLen := 32 })
  else -- unsupported instruction length
    (s.setHs { s.hs with instLen := 0 }).createException .imisalign s.hs.pc

/-- The word `fetch` decodes, from `instbuf` if that is not zero. -/
def fetchInst (env : Env δ) (s : Sys δ) : Sys δ :=
  let s := s.setMemStatus false
  if s.hs.instbuf = 0 then
    let r := virtMemFetch env .u32 s s.hs.pc
    r.2.setHs { r.2.hs with inst := r.1.setWidth 32 }
  else s.setHs { s.hs with inst := s.hs.instbuf.signExtend 32, instbuf := 0 }

/-- `fetch`. The second HANDLE_MEM_ERROR of the source finds both flags clear,
    as the first one left them. -/
def fetch (env : Env δ) (s : Sys δ) : HartException × Sys δ :=
  let s := fetchInst env s
  match handleMemError .iafault .ipfault s.hs.pc s with
  | some t => t
  | none => fetchLength s

/-- The end of `cycle`: the counters, and the interrupt check. -/
def cycleEnd (s : Sys δ) : Sys δ :=
  let c := s.hs.csr
  let s := s.setHs { s.hs with
    csr := { c with mcycle := c.mcycle + 1, cycle := c.mcycle + 1, instret := c.minstret } }
  if s.hs.chkInt then s.setHs (setupPendingInt { s.hs with chkInt := false }).2 else s

/-- `cycle`; false to halt. -/
def cycle (env : Env δ) (s : Sys δ) : Bool × Sys δ :=
  let r := fetch env (s.setReg 0 0)
  if env.sigMode ∧ r.2.hs.inst = 0xbad33013 then (false, r.2)
  else if r.1 ≠ .noexc then (true, cycleEnd r.2)
  else (true, cycleEnd (decodeExc env r.2).2)

end RvEmu
