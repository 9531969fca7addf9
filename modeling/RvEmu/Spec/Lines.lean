import RvEmu.Spec.BusRule
import RvEmu.Spec.Machine

/-!
# The lines between the harts

What one thread can do to the hart of another. The devices write to `mip` of the harts, and
`main` to `chk_int`, but each of them only to the bits of its own interrupts: the timer and
the software interrupt of the ACLINT, and the two external ones of the PLIC. So a hart that
runs no cycle stays as it is, up to these four lines and the request to check them.

## Key results

- `step_lines`: the lines that a step of each thread can move
- `idle_hart_kept`: a hart between two of its cycles
-/

namespace RvEmu

variable {δ : Type}

/-- Apart from the bits of `lines`, `mip` is the same on every hart. -/
def OnlyLines (lines : BitVec 64) (v w : BitVec 16 → BitVec 64) : Prop :=
  ∀ i, w i &&& ~~~lines = v i &&& ~~~lines

/-- Where fewer bits are compared, there is nothing new to differ. -/
theorem offLines_mono {x y lines lines' : BitVec 64} (h : x &&& ~~~lines = y &&& ~~~lines)
    (hle : ~~~lines' &&& ~~~lines = ~~~lines') : x &&& ~~~lines' = y &&& ~~~lines' := by
  rw [← hle, BitVec.and_comm (~~~lines'), ← BitVec.and_assoc, ← BitVec.and_assoc, h]

namespace OnlyLines

variable {lines lines' : BitVec 64} {u v w : BitVec 16 → BitVec 64}

/-- Nothing has moved. -/
theorem refl (v : BitVec 16 → BitVec 64) : OnlyLines lines v v := fun _ => rfl

/-- Lines that move twice. -/
theorem trans (h : OnlyLines lines u v) (h' : OnlyLines lines v w) : OnlyLines lines u w :=
  fun i => (h' i).trans (h i)

/-- More lines may move. -/
theorem mono (h : OnlyLines lines v w) (hle : ~~~lines' &&& ~~~lines = ~~~lines') :
    OnlyLines lines' v w := fun i => offLines_mono (h i) hle

/-- The lines of one hart have moved. -/
theorem update (v : BitVec 16 → BitVec 64) (i : BitVec 16) {mip : BitVec 64}
    (h : mip &&& ~~~lines = v i &&& ~~~lines) : OnlyLines lines v (Function.update v i mip) := by
  intro j
  by_cases hj : j = i
  · rw [hj, Function.update_self, h]
  · rw [Function.update_of_ne hj]

end OnlyLines

/-! ## The devices -/

/-- The external interrupts of a hart. -/
def externalLines : BitVec 64 := 1#64 <<< 9 ||| 1#64 <<< 11

section Plic

variable (machHartCount : BitVec 16)

/-- A notification raises one of the external interrupts, … -/
theorem plicNotifyCtx_lines (p : PlicState) (ctx : BitVec 16) :
    OnlyLines externalLines p.mip (plicNotifyCtx p ctx).mip := by
  refine OnlyLines.update p.mip (ctxHart ctx) ?_
  split
  · exact BitVec.or_and_of_disjoint (by decide) _
  · exact BitVec.or_and_of_disjoint (by decide) _

/-- … and the end of the interrupt takes it back. -/
theorem plicNotifyFinishCtx_lines (p : PlicState) (ctx : BitVec 16) :
    OnlyLines externalLines p.mip (plicNotifyFinishCtx p ctx).mip := by
  refine OnlyLines.update p.mip (ctxHart ctx) ?_
  split
  · exact BitVec.and_not_and_of_disjoint (by decide) _
  · exact BitVec.and_not_and_of_disjoint (by decide) _

/-- Trying one source notifies contexts, … -/
theorem plicTryInt_lines (source : BitVec 16) (p : PlicState) :
    OnlyLines externalLines p.mip (plicTryInt machHartCount source p).mip := by
  unfold plicTryInt
  split
  · exact .refl _
  · dsimp only
    refine List.foldlRecOn (motive := fun (q : PlicState) => OnlyLines externalLines p.mip q.mip) _ _
      (.refl _) fun q hq i _ => ?_
    split
    · exact hq.trans (plicNotifyCtx_lines q _)
    · exact hq

/-- … and `plic_chk` tries all of them. -/
theorem plicChk_lines (p : PlicState) :
    OnlyLines externalLines p.mip (plicChk machHartCount p).mip := by
  unfold plicChk plicTryIntAll
  exact List.foldlRecOn (motive := fun (q : PlicState) => OnlyLines externalLines p.mip q.mip) _ _
    (.refl _) fun q hq i _ => hq.trans (plicTryInt_lines machHartCount _ q)

/-- A new interrupt is tried at once. -/
theorem plicSendInt_lines (source : BitVec 16) (p : PlicState) :
    OnlyLines externalLines p.mip (plicSendInt machHartCount source p).mip := by
  unfold plicSendInt
  dsimp only
  split
  · exact .refl _
  · exact plicTryInt_lines machHartCount source _

/-- Only the end of an interrupt touches `mip`. -/
theorem plicW_lines (offset : BitVec 64) (data : BitVec 32) (p : PlicState) :
    OnlyLines externalLines p.mip (plicW machHartCount offset data p).mip := by
  have hite (c : Prop) [Decidable c] {q r : PlicState} (h : q.mip = r.mip) :
      (if c then q else r).mip = r.mip := by
    split
    · exact h
    · rfl
  unfold plicW
  extract_lets roffset p₁ p₂ p₃ p₄
  -- one conditional write after the other
  have h₁ : p₁.mip = p.mip := hite _ rfl
  have h₂ : p₂.mip = p₁.mip := hite _ rfl
  have h₃ : p₃.mip = p₂.mip := hite _ rfl
  have h₄ : p₄.mip = p₃.mip := hite _ rfl
  rw [← h₁, ← h₂, ← h₃, ← h₄]
  split
  · exact plicNotifyFinishCtx_lines { p₄ with intHandling := _ } _
  · exact .refl _

end Plic

section Uart

variable (host : UartHost)

/-- The interrupts of the UART go to the PLIC, … -/
theorem uartSendint_lines (code : BitVec 8) (s : UartState) :
    OnlyLines externalLines s.plic.mip (uartSendint host code s).plic.mip := by
  unfold uartSendint
  split
  · exact .refl _
  · exact plicSendInt_lines host.machHartCount 10 s.plic

/-- … from the transmitter, … -/
theorem uartChkTransmitter_lines (s : UartState) :
    OnlyLines externalLines s.plic.mip (uartChkTransmitter host s).plic.mip := by
  unfold uartChkTransmitter
  split
  · dsimp only
    split
    · exact uartSendint_lines host _ (s.setReg 5 _)
    · exact .refl _
  · split <;> exact .refl _

/-- … from the timeout of the receiver, … -/
theorem uartChkTimeout_lines (s : UartState) :
    OnlyLines externalLines s.plic.mip (uartChkTimeout host s).plic.mip := by
  unfold uartChkTimeout
  dsimp only
  have hcount : (if s.pendingIn > 0 then { s with uartTimeout := s.uartTimeout + 1 }
      else s).plic = s.plic := by
    split <;> rfl
  generalize (if s.pendingIn > 0 then { s with uartTimeout := s.uartTimeout + 1 } else s) = t
    at hcount
  rw [← hcount]
  split
  · exact uartSendint_lines host _ t
  · exact .refl _

/-- … and from `uart_loop`. -/
theorem uartLoop_lines (s : UartState) :
    OnlyLines externalLines s.plic.mip (uartLoop host s).2.plic.mip := by
  unfold uartLoop
  dsimp only
  split
  · exact uartSendint_lines host _ (UartState.setReg { s with
      txOffset := 0, output := fun i => if i < ibufSize then 0 else s.output i } 5 _)
  · exact .refl _

/-- The write to a register other than the transmitter has to do with the UART alone. -/
theorem uartW_plic {offset : Nat} (hoffset : offset ≠ 0) (data : BitVec 8) (s : UartState) :
    (uartW offset data s).plic = s.plic := by
  unfold uartW
  extract_lets t u v
  have ht : t.plic = s.plic := rfl
  have hu : u.plic = t.plic := by
    unfold u
    split <;> rfl
  have hv : v.plic = u.plic := by
    unfold v
    rw [if_neg hoffset]
  rw [← ht, ← hu, ← hv]
  split <;> rfl

/-- Up to its lock, a write to the transmitter has to do with the UART alone, … -/
theorem uartTransmitLock_plic (s : UartState) : (uartTransmitLock s).plic = s.plic := by
  unfold uartTransmitLock
  split <;> rfl

/-- … and behind it as well. -/
theorem uartTransmitData_plic (data : BitVec 8) (s : UartState) :
    (uartTransmitData data s).plic = s.plic := by
  unfold uartTransmitData
  dsimp only
  split <;> rfl

/-- A guest's write at any offset, where it may wait for `uart_loop`. -/
theorem uartWrite_lines (offset : Nat) (data : BitVec 8) (s : UartState) :
    OnlyLines externalLines s.plic.mip (uartWrite host offset data s).2.plic.mip := by
  unfold uartWrite
  split
  · dsimp only
    have hlock : (uartTransmitLock (s.setReg 0 data)).plic = s.plic := uartTransmitLock_plic _
    rw [uartTransmitData_plic, ← hlock]
    split
    · exact uartLoop_lines host _
    · exact .refl _
  · next hoffset =>
    rw [uartW_plic hoffset]
    exact .refl _

/-- The byte behind `input_buffer` is none of `mip`. -/
def UartHost.MipApart (host : UartHost) : Prop :=
  ∀ s b, (host.overrunPut s b).plic.mip = s.plic.mip

/-- Receiving, into the input buffer or behind it. -/
theorem uartReceive_lines (hmip : host.MipApart) (ch : BitVec 8) (s : UartState) :
    OnlyLines externalLines s.plic.mip (uartReceive host ch s).plic.mip := by
  have hput : (s.put host ch).plic.mip = s.plic.mip := by
    unfold UartState.put
    split
    · rfl
    · exact hmip s ch
  unfold uartReceive
  extract_lets t u v
  rw [← hput]
  change OnlyLines externalLines t.plic.mip v.plic.mip
  unfold v
  split
  · exact uartSendint_lines host _ u
  · exact .refl _

/-- The poll of the terminal. -/
theorem uartChk_lines (hmip : host.MipApart) (received : Option (BitVec 8)) (s : UartState) :
    OnlyLines externalLines s.plic.mip (uartChk host received s).plic.mip := by
  unfold uartChk
  extract_lets ch t
  have ht : OnlyLines externalLines s.plic.mip t.plic.mip := by
    unfold t
    split
    · exact uartReceive_lines host hmip ch s
    · exact .refl _
  exact (ht.trans (uartChkTimeout_lines host t)).trans (uartChkTransmitter_lines host _)

end Uart

section Aclint

variable {machHartCount : BitVec 16}

/-- A call into `aclint.cpp` moves the lines of one hart. -/
theorem mips_update (s : AclintState machHartCount) (i : Nat) (mip : BitVec 64)
    {lines : BitVec 64} (h : mip &&& ~~~lines = s.mip i &&& ~~~lines) :
    OnlyLines lines s.mips fun j => Function.update s.mip i mip j.toNat := by
  intro j
  change Function.update s.mip i mip j.toNat &&& _ = s.mip j.toNat &&& _
  by_cases hj : j.toNat = i
  · rw [hj, Function.update_self, h]
  · rw [Function.update_of_ne hj]

/-- The comparison with the time decides about the timer interrupt, … -/
theorem aclintMtimerChk_lines (now : BitVec 64) (i : Nat) (s : AclintState machHartCount) :
    OnlyLines (1#64 <<< 7) s.mips (aclintMtimerChk now i s).mips := by
  refine mips_update s i _ ?_
  split
  · exact BitVec.or_and_of_disjoint (by decide) _
  · exact BitVec.and_not_and_of_disjoint (by decide) _

/-- … also when the guest has written a register. -/
theorem aclintMtimerW_lines (now offset data : BitVec 64) (s : AclintState machHartCount) :
    OnlyLines (1#64 <<< 7) s.mips (aclintMtimerW now offset data s).mips := by
  unfold aclintMtimerW
  split
  · exact .refl _
  · exact aclintMtimerChk_lines now _ { s with mtimerRegs := _ }

/-- The software interrupt is raised, never taken back. -/
theorem aclintMswiChk_lines (i : Nat) (s : AclintState machHartCount) :
    OnlyLines (1#64 <<< 3) s.mips (aclintMswiChk i s).mips := by
  unfold aclintMswiChk
  split
  · exact mips_update s i _ (BitVec.or_and_of_disjoint (by decide) _)
  · exact .refl _

/-- The poll of a hart moves its timer and its software interrupt. -/
theorem hwPerhartUpdate_lines (now : BitVec 64) (i : Nat) (s : AclintState machHartCount) :
    OnlyLines (1#64 <<< 7 ||| 1#64 <<< 3) s.mips (RvEmu.hwPerhartUpdate now i s).mips :=
  ((aclintMtimerChk_lines now i s).mono (by decide)).trans
    ((aclintMswiChk_lines i _).mono (by decide))

end Aclint

/-! ## The handlers -/

/-- The lines that stores to the devices move: those of the PLIC, and the timer. -/
def deviceLines : BitVec 64 := externalLines ||| 1#64 <<< 7

section Handlers

variable (host : Host)

/-- The devices see `mip` as it is in `hartlist`. -/
theorem aclint_mips (d : Devices) (mips : BitVec 16 → BitVec 64) :
    (d.aclint host mips).mips = mips := by
  funext i
  change mips (BitVec.ofNat 16 i.toNat) = mips i
  rw [BitVec.ofNat_toNat, BitVec.setWidth_eq]

/-- A write to any of the devices moves the lines of the PLIC, or the timer. -/
theorem handlerW_lines (dev : Device) (offset data : BitVec 64) (len : Nat) (d : Devices)
    (mips : BitVec 16 → BitVec 64) :
    OnlyLines deviceLines mips (host.handlerW dev offset data len d mips).2 := by
  have haclint := aclint_mips host d mips
  cases dev with
  | virtioMmioBlk => exact .refl _
  | uart => exact (uartWrite_lines host.toUartHost _ _ (d.uartWith mips)).mono (by decide)
  | plic => exact (plicW_lines host.machHartCount _ _ (d.plicWith mips)).mono (by decide)
  | aclintMtimer =>
    have hlines := aclintMtimerW_lines (d.now host) offset (host.operand .aclintMtimer offset
      data len d) (d.aclint host mips)
    rw [haclint] at hlines
    exact hlines.mono (by decide)
  | aclintMswi =>
    have hsame : (host.handlerW .aclintMswi offset data len d mips).2 = mips := haclint
    rw [hsame]
    exact .refl _
  | dtb => exact .refl _

/-- A fetch moves no line. -/
theorem memFetch_peerMip {env : Env δ} (s : Sys δ) (w : Width) (addr : BitVec 64) :
    (memFetch env w s addr).2.bus.peerMip = s.bus.peerMip := by
  unfold memFetch
  split
  · rfl
  · unfold phyMemFetch
    split
    · rfl
    · split
      · rfl
      · split <;> rfl

/-- A store moves the lines of the other harts as far as the devices do. -/
theorem memStore_peerMip (s : Sys Devices) (w : Width) (addr data : BitVec 64) {j : BitVec 16}
    (hj : j ≠ s.hs.hartid) :
    (memStore host.env w s addr data).bus.peerMip j &&& ~~~deviceLines =
      s.bus.peerMip j &&& ~~~deviceLines := by
  unfold memStore
  split
  · rfl
  · unfold phyMemStore
    split
    · rfl
    · split
      · next e _ =>
        have hlines := handlerW_lines host e.handler (addr - e.base) (w.trunc data) w.bytes
          s.bus.dev (Function.update s.bus.peerMip s.hs.hartid s.hs.csr.mip) j
        rw [Function.update_of_ne hj] at hlines
        exact hlines
      · rfl

/-- A cycle moves the lines of the other harts as far as the devices do. -/
theorem cycle_peerMip (s : Sys Devices) {j : BitVec 16} (hj : j ≠ s.hs.hartid) :
    (cycle host.env s).2.bus.peerMip j &&& ~~~deviceLines =
      s.bus.peerMip j &&& ~~~deviceLines := by
  have hclosed : BusClosed host.env s.hs.hartid fun b =>
      b.peerMip j &&& ~~~deviceLines = s.bus.peerMip j &&& ~~~deviceLines := {
    fetch := fun t w addr _ h => by rw [memFetch_peerMip, h]
    store := fun t w addr data hid h => by
      rw [memStore_peerMip host t w addr data (hid ▸ hj), h]
    reserve := fun _ _ h => h
    time := fun _ h => h }
  exact hclosed.cycle ⟨rfl, rfl⟩

end Handlers

/-! ## The numbers of the harts -/

/-- The number of the hart lies behind no CSR, … -/
theorem CsrPtr.set_hartid (hs : HartState) (v : BitVec 64) (ptr : CsrPtr) :
    (CsrPtr.set hs v ptr).hartid = hs.hartid := by
  cases ptr <;> rfl

/-- … is mirrored nowhere, … -/
theorem csrMirror_hartid (hs : HartState) (imm : BitVec 12) (sstatus sie : Bool) :
    (csrMirror hs imm sstatus sie).hartid = hs.hartid := by
  unfold csrMirror
  by_cases himm : imm = 0x300
  · cases sstatus <;> cases sie <;> simp only [if_pos himm] <;> rfl
  · cases sstatus <;> cases sie <;> simp only [if_neg himm] <;> rfl

/-- … and is kept by a trap, … -/
theorem createException_hartid (hs : HartState) (he : HartException) (tval : BitVec 64) :
    (createException hs he tval).2.hartid = hs.hartid :=
  (congrArg HartState.hartid (createException_settings hs he tval) :)

/-- No CSR is the number of the hart. -/
theorem execCsrPtr_hartid (d : Decoded) (csrno : BitVec 12) (wvalue : BitVec 64) (s : Sys δ) :
    (execCsrPtr d csrno wvalue s).2.hs.hartid = s.hs.hartid := by
  have htrap (t : Sys δ) : (illinst t).2.hs.hartid = t.hs.hartid :=
    createException_hartid t.hs .illinst _
  unfold execCsrPtr
  dsimp only
  generalize (if (csrno == 0x100) = true then (0x300 : BitVec 12) else _) = imm
  split
  · exact htrap s
  · cases csrFromAddr imm with
    | none => exact htrap s
    | some ptr =>
      have hread : (if d.rd ≠ 0 then s.setReg d.rd (ptr.get s.hs) else s).hs.hartid =
          s.hs.hartid := by
        split <;> rfl
      dsimp only
      generalize (if d.rd ≠ 0 then s.setReg d.rd (ptr.get s.hs) else s) = t at hread
      split
      · exact hread
      · split
        · split
          · exact (htrap t).trans hread
          · split
            · exact hread
            · refine (csrMirror_hartid _ _ _ _).trans ((CsrPtr.set_hartid _ _ ptr).trans ?_)
              split <;> exact hread
        · exact (csrMirror_hartid _ _ _ _).trans hread

/-- … and by an access to `pmpcfg`. -/
theorem pmpcfgRw_hartid (env : Env δ) (s : Sys δ) (csrno : BitVec 12) (rd : BitVec 5)
    (wvalue : BitVec 64) (op : BitVec 2) :
    (pmpcfgRw env s csrno rd wvalue op).2.hs.hartid = s.hs.hartid := by
  unfold pmpcfgRw
  split
  · exact createException_hartid s.hs .illinst _
  · rfl

/-- No instruction changes the number of its hart. -/
theorem decodeExc_hartid (env : Env δ) (s : Sys δ) :
    (decodeExc env s).2.hs.hartid = s.hs.hartid := by
  rcases decodeExc_cases env s with ⟨t, tval, ht, -, h⟩ | ⟨d, -, h⟩ <;> rw [h]
  · exact (createException_hartid t.hs .illinst tval).trans ht.control.hartid
  · refine (finish_proj HartState.hartid (fun _ _ _ _ => rfl) _).trans ?_
    let u := s.withInst d.inst s.hs.instLen
    have houtcome {r : Flow × Sys δ} (hr : Outcome (SameControl u) r) :
        r.2.hs.hartid = u.hs.hartid :=
      hr.state (R := fun t => t.hs.hartid = u.hs.hartid)
        (fun he tval t ht => (createException_hartid t.hs he tval).trans ht.hartid)
        fun _ _ ht => ht.hartid
    by_cases hsys : d.opFun = .system
    · rw [execute_system env hsys]
      rcases execSystem_cases env d u with hout | ⟨-, -, hm⟩ | ⟨-, -, -, hs⟩ | ⟨-, hcsr⟩
      · exact houtcome hout.control
      · rw [hm]
        rfl
      · rw [hs]
        rfl
      · rw [hcsr]
        rcases execCsr_cases env d u with hout | ⟨-, -, t, ht, hp⟩ | ⟨-, hptr⟩
        · exact houtcome hout.control
        · rw [hp]
          exact (pmpcfgRw_hartid env t _ _ _ _).trans ht.control.hartid
        · rw [hptr]
          exact execCsrPtr_hartid d _ _ u
    · exact houtcome (execute_outcome env d u hsys)

/-- A cycle keeps the number of its hart. -/
theorem cycle_hartid (env : Env δ) (t : Sys δ) : (cycle env t).2.hs.hartid = t.hs.hartid := by
  rcases cycle_settings env t with hc | ⟨s, -, hs, hc⟩
  · exact (congrArg HartState.hartid hc :)
  · have hfetch : s.hs.hartid = t.hs.hartid := (congrArg HartState.hartid hs :)
    have hcycle : (cycle env t).2.hs.hartid = (decodeExc env s).2.hs.hartid :=
      (congrArg HartState.hartid hc :)
    rw [hcycle, decodeExc_hartid, hfetch]

/-- No step of the machine renumbers a hart. -/
theorem Machine.step_hartid (host : Host) (m : Machine) (e : MachineEvent) (i : BitVec 16) :
    ((m.step host e).hartlist i).hartid = (m.hartlist i).hartid := by
  by_cases he : e = .hart i
  · subst he
    rw [m.stepHart_hartlist host i]
    exact cycle_hartid host.env (m.view i)
  · exact (congrArg HartState.hartid (m.step_hartlist host i he) :)

/-- `hartlist[i]` is hart `i`. -/
theorem Machine.Reachable.hartid {host : Host} {m : Machine} (h : m.Reachable host)
    (i : BitVec 16) : (m.hartlist i).hartid = i := by
  refine h.invariant (P := fun m => (m.hartlist i).hartid = i) (fun _ _ => rfl) ?_
  intro m e _ ih
  rw [m.step_hartid, ih]

/-! ## The machine -/

/-- The lines that a step of the thread can move on the other harts. -/
def MachineEvent.lines : MachineEvent → BitVec 64
  | .hart _ => deviceLines
  | .main _ => deviceLines ||| 1#64 <<< 3
  | .uartLoop => externalLines
  | .sigint => 0

/-- All of these: the software and the timer interrupt of M-mode, and the two external ones. -/
def sharedLines : BitVec 64 := 0xA88

namespace Machine

variable {host : Host} (m : Machine)

/-- The request to check the interrupts moves no line. -/
theorem setChkInt_mips (i : BitVec 16) : (m.setChkInt i).mips = m.mips := by
  funext j
  change (Function.update m.hartlist i { m.hartlist i with chkInt := true } j).csr.mip =
    (m.hartlist j).csr.mip
  by_cases hj : j = i
  · rw [hj, Function.update_self]
  · rw [Function.update_of_ne hj]

/-- The loop of `main` moves the lines of the ACLINT and of the PLIC. -/
theorem mainLoop_lines (hmip : host.toUartHost.MipApart) (received : Option (BitVec 8)) :
    OnlyLines (MachineEvent.main received).lines m.mips (m.mainLoop host received).mips := by
  unfold mainLoop
  extract_lets count
  split
  · exact .refl _
  · next i _ =>
    let k := BitVec.ofNat 16 i
    have hpoll := hwPerhartUpdate_lines (m.dev.now host) k.toNat (m.dev.aclint host m.mips)
    rw [aclint_mips] at hpoll
    have hset := setChkInt_mips (m.call (Devices.hwPerhartUpdate host k)) k
    change OnlyLines _ m.mips ((m.call (Devices.hwPerhartUpdate host k)).setChkInt k).mips
    rw [hset]
    exact hpoll.mono (by rw [MachineEvent.lines]; decide)
  · have hchk := uartChk_lines host.toUartHost hmip received (m.dev.uartWith m.mips)
    have hupdate := hchk.trans (plicChk_lines host.machHartCount _)
    exact hupdate.mono (by rw [MachineEvent.lines]; decide)
  · exact .refl _
  · exact .refl _

/-- The lines that a step moves on a hart other than its own. -/
theorem step_lines (hmip : host.toUartHost.MipApart) (hid : ∀ j, (m.hartlist j).hartid = j)
    {e : MachineEvent} {i : BitVec 16} (h : e ≠ .hart i) :
    (m.step host e).mips i &&& ~~~e.lines = m.mips i &&& ~~~e.lines := by
  cases e with
  | hart j =>
    have hij : i ≠ j := fun hij => h (congrArg _ hij.symm)
    change ((m.step host (.hart j)).hartlist i).csr.mip &&& _ = _
    rw [m.stepHart_other host j i hij]
    refine cycle_peerMip host (m.view j) ?_
    rw [show (m.view j).hs.hartid = j from hid j]
    exact hij
  | main received => exact mainLoop_lines m hmip received i
  | uartLoop => exact uartLoop_lines host.toUartHost (m.dev.uartWith m.mips) i
  | sigint => rfl

/-- No thread but that of the hart takes back the request to check its interrupts. -/
theorem step_chkInt {e : MachineEvent} {i : BitVec 16} (h : e ≠ .hart i)
    (hchk : (m.hartlist i).chkInt = true) : ((m.step host e).hartlist i).chkInt = true := by
  cases e with
  | hart j =>
    rw [m.stepHart_other host j i fun hij => h (congrArg _ hij.symm)]
    exact hchk
  | main received =>
    rw [step]
    unfold mainLoop
    extract_lets count
    split
    · exact hchk
    · next k _ =>
      let p := m.call (Devices.hwPerhartUpdate host (BitVec.ofNat 16 k))
      change (Function.update p.hartlist (BitVec.ofNat 16 k)
        { p.hartlist (BitVec.ofNat 16 k) with chkInt := true } i).chkInt = true
      by_cases hi : i = BitVec.ofNat 16 k
      · rw [hi, Function.update_self]
      · rw [Function.update_of_ne hi]
        exact hchk
    · exact hchk
    · exact hchk
    · exact hchk
  | uartLoop => exact hchk
  | sigint => exact hchk

end Machine

/-- Whatever the other threads do, a hart that runs no cycle keeps its registers, its pc, its
    CSRs, its TLB and its PMP. Of `mip` only the timer and the software interrupt of M-mode and
    the two external interrupts can change, and a request to check the interrupts stays. -/
theorem idle_hart_kept {host : Host} (hmip : host.toUartHost.MipApart) {m n : Machine}
    (hreach : m.Reachable host) {i : BitVec 16}
    (hrun : Relation.ReflTransGen (Machine.StepOf host (· ≠ .hart i)) m n) :
    Machine.offLines (n.hartlist i) = Machine.offLines (m.hartlist i) ∧
      n.mips i &&& ~~~sharedLines = m.mips i &&& ~~~sharedLines ∧
      ((m.hartlist i).chkInt = true → (n.hartlist i).chkInt = true) := by
  refine (holds_of_run (P := fun n => (∀ j, (n.hartlist j).hartid = j) ∧
    Machine.offLines (n.hartlist i) = Machine.offLines (m.hartlist i) ∧
      n.mips i &&& ~~~sharedLines = m.mips i &&& ~~~sharedLines ∧
      ((m.hartlist i).chkInt = true → (n.hartlist i).chkInt = true)) ?_ hrun
    ⟨hreach.hartid, rfl, rfl, id⟩).2
  rintro s t ⟨e, hne, -, rfl⟩ ⟨hid, hoff, hlines, hchk⟩
  refine ⟨fun j => (s.step_hartid host e j).trans (hid j), (s.step_hartlist host i hne).trans hoff,
    ?_, fun h => s.step_chkInt hne (hchk h)⟩
  -- the lines of each thread are among the four
  have hsub : ~~~sharedLines &&& ~~~e.lines = ~~~sharedLines := by
    cases e <;> rw [MachineEvent.lines] <;> decide
  exact (offLines_mono (s.step_lines hmip hid hne) hsub).trans hlines

end RvEmu
