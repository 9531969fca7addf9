import RvEmu.Native.Plic

/-!
# The serial terminal

`uart.cpp`: an input ring buffer that `uart_chk` fills from the terminal and the guest
empties, and an output buffer that the guest fills and the thread of `uart_loop` prints.
Each of the functions is one atomic step here.

`char` is signed. Pointers into `input_buffer` are offsets from its start; of its 16
bytes, the pointers also reach the one behind.
-/

namespace RvEmu

/-- The globals of `uart.cpp`, and the PLIC that it sends its interrupt to. The memory map
    lets offsets up to 15 through to the 8 `regs`; each is a cell of its own. -/
structure UartState where
  inputBuffer : Nat → BitVec 8
  readPtr : Nat
  writePtr : Nat
  outputByte : BitVec 64
  dlab : Bool
  pendingIn : BitVec 16
  ls : BitVec 8
  ms : BitVec 8
  fifoTriggerLvl : BitVec 8
  regs : Nat → BitVec 8
  uartTimeout : BitVec 16
  txRequired : Bool
  output : Nat → BitVec 8
  txOffset : Nat
  plic : PlicState

/-- What lies outside of `uart.cpp`: the command line settings, and what the byte behind
    `input_buffer` is to the rest of the program. -/
structure UartHost where
  machHartCount : BitVec 16
  dbgFallback : Bool
  sigMode : Bool
  overrunGet : UartState → BitVec 8
  overrunPut : UartState → BitVec 8 → UartState

/-- `IBUF_SIZE` -/
def ibufSize : Nat := 16

/-- The zeroed globals after `uart_init`. -/
def uartInit (plic : PlicState) : UartState where
  inputBuffer := fun _ => 0
  readPtr := 0
  writePtr := 0
  outputByte := 0
  dlab := false
  pendingIn := 0
  ls := 0
  ms := 0
  fifoTriggerLvl := 1
  regs := Function.update (Function.update (fun _ => 0) 2 0b01) 5 0b01100000
  uartTimeout := 0
  txRequired := false
  output := fun _ => 0
  txOffset := 0
  plic := plic

/-- `regs[i] = v` -/
def UartState.setReg (s : UartState) (i : Nat) (v : BitVec 8) : UartState :=
  { s with regs := Function.update s.regs i v }

/-- `uart_int_prio`; 0 for a non-existent interrupt -/
def uartIntPrio (i : Nat) : Nat := [4, 3, 2, 1, 0, 6, 2, 5].getD i 0

/-- `uart_sendint` -/
def uartSendint (host : UartHost) (code : BitVec 8) (s : UartState) : UartState :=
  if s.regs 2 &&& 0xF ≠ 0x1 ∧ -- an interrupt is pending
      uartIntPrio (code >>> 1).toNat < uartIntPrio ((s.regs 2 >>> 1) &&& 0b111).toNat then s
  else
    let s := s.setReg 2 ((s.regs 2 &&& ~~~0xF) ||| (code &&& 0xF))
    { s with plic := plicSendInt host.machHartCount 10 s.plic }

/-- `uart_clearint` -/
def uartClearint (s : UartState) : UartState := s.setReg 2 ((s.regs 2 &&& ~~~0xF) ||| 0x01)

/-- `*read_ptr` -/
def UartState.deref (host : UartHost) (s : UartState) : BitVec 8 :=
  if s.readPtr < ibufSize then s.inputBuffer s.readPtr else host.overrunGet s

/-- `*write_ptr = ch` -/
def UartState.put (host : UartHost) (s : UartState) (ch : BitVec 8) : UartState :=
  if s.writePtr < ibufSize then
    { s with inputBuffer := Function.update s.inputBuffer s.writePtr ch }
  else host.overrunPut s ch

/-- The test of the pointers against the end of the buffer. -/
def wrapPtr (ptr : Nat) : Nat := if ptr > ibufSize then 0 else ptr

/-- The switch of `uart_r`. -/
def uartFetch (host : UartHost) (offset : Nat) (s : UartState) : UartState :=
  match offset with
  | 0 =>
    if s.dlab then { s with outputByte := s.ls.setWidth 64 }
    else if s.pendingIn > 0 then
      { s with
        outputByte := (s.deref host).signExtend 64
        readPtr := wrapPtr (s.readPtr + 1)
        pendingIn := s.pendingIn - 1 }
    else { s with outputByte := 0 }
  | 1 => { s with outputByte := (if s.dlab then s.regs 1 else s.ms).setWidth 64 }
  | _ => { s with outputByte := (s.regs offset).setWidth 64 }

/-- `uart_r`; the caller reads `output_byte`. -/
def uartR (host : UartHost) (offset : Nat) (s : UartState) : UartState :=
  let s := uartFetch host offset s
  let s := if offset = 2 ∧ s.regs 2 &&& 0xF = 0b0010 then uartClearint s else s
  if s.pendingIn > 0 then s.setReg 5 (s.regs 5 ||| 1) else s.setReg 5 (s.regs 5 &&& ~~~1)

/-- A write to the transmitter up to its spin lock on `tx_required`. -/
def uartTransmitLock (s : UartState) : UartState :=
  if s.regs 2 &&& 0xF = 0b0010 then uartClearint s else s

/-- A write to the transmitter behind its spin lock. -/
def uartTransmitData (dataChar : BitVec 8) (s : UartState) : UartState :=
  let s := { s with output := Function.update s.output s.txOffset dataChar
                    txOffset := s.txOffset + 1 }
  -- transmitter buffer not empty
  let s := s.setReg 5 (s.regs 5 &&& ~~~0b1000000)
  if s.txOffset ≥ ibufSize - 1 ∨ dataChar = 0xa then
    -- THR full, trigger printing
    { s.setReg 5 (s.regs 5 &&& ~~~0b0100000) with txRequired := true }
  else s

/-- The write to the transmitter, if `tx_required` is false. -/
def uartTransmit (dataChar : BitVec 8) (s : UartState) : UartState :=
  uartTransmitData dataChar (uartTransmitLock s)

/-- `fifo_trigger_lvl` for the two upper bits of FCR. -/
def fifoTrigger (level : BitVec 8) : BitVec 8 :=
  if level = 0 then 1 else if level = 1 then 4 else if level = 2 then 8 else 14

/-- `uart_w`; a write to offset 0 spins before it while `tx_required`. -/
def uartW (offset : Nat) (data : BitVec 8) (s : UartState) : UartState :=
  let s := s.setReg offset data
  let s := if offset = 3 then { s with dlab := (s.regs 3).getLsbD 7 } else s
  let s := if offset = 0 then uartTransmit data s else s
  if offset = 2 then { s with fifoTriggerLvl := fifoTrigger (s.regs 2 >>> 6) } else s

/-- `pty_getc`: the next byte of the terminal as a `char`, or `EOF` cast to one. -/
def ptyGetc (received : Option (BitVec 8)) : BitVec 8 := received.getD 0xFF

/-- `uart_chk` from a character that is not -1. -/
def uartReceive (host : UartHost) (ch : BitVec 8) (s : UartState) : UartState :=
  let s := s.put host ch
  let s := { s with writePtr := s.writePtr + 1, pendingIn := s.pendingIn + 1 }
  let s := if (s.writePtr : Int) - s.readPtr > s.fifoTriggerLvl.toNat ∧ (s.regs 1).getLsbD 0 then
      uartSendint host 0b0100 s -- data ready interrupt
    else s
  { s with writePtr := wrapPtr s.writePtr }

/-- The receiver timeout of `uart_chk`. -/
def uartChkTimeout (host : UartHost) (s : UartState) : UartState :=
  let s := if s.pendingIn > 0 then { s with uartTimeout := s.uartTimeout + 1 } else s
  if s.uartTimeout > 4 then { uartSendint host 0b0100 s with uartTimeout := 0 } else s

/-- The end of `uart_chk`: the transmitter. -/
def uartChkTransmitter (host : UartHost) (s : UartState) : UartState :=
  if s.txOffset = 0 then
    let s := s.setReg 5 (s.regs 5 ||| 0b1100000)
    if (s.regs 1).getLsbD 1 then uartSendint host 0b0010 s else s -- THR empty interrupt
  else if s.txRequired = false then { s with txRequired := true }
  else s

/-- `uart_chk`, with what the terminal has for it. -/
def uartChk (host : UartHost) (received : Option (BitVec 8)) (s : UartState) : UartState :=
  let ch := ptyGetc received
  let s := if ch ≠ -1 then uartReceive host ch s else s
  uartChkTransmitter host (uartChkTimeout host s)

/-- The C string in `output`. -/
def UartState.message (s : UartState) : List (BitVec 8) :=
  ((List.range ibufSize).map s.output).takeWhile (· ≠ 0)

/-- `pty_print`: what it prints; `dbg_print` is silent in `sig_mode`. -/
def ptyPrint (host : UartHost) (msg : List (BitVec 8)) : List (BitVec 8) :=
  if host.dbgFallback && host.sigMode then [] else msg

/-- An iteration of `uart_loop` once `tx_required`, with what it prints. -/
def uartLoop (host : UartHost) (s : UartState) : List (BitVec 8) × UartState :=
  let printed :=
    if s.output s.txOffset = 0xa then -- last character is a line feed
      ptyPrint host
        { s with output := Function.update s.output s.txOffset 0 }.message ++ [0xa]
    else ptyPrint host s.message
  let s := { s with txOffset := 0, output := fun i => if i < ibufSize then 0 else s.output i }
  let s := s.setReg 5 (s.regs 5 ||| 0b1100000)
  let s := if (s.regs 1).getLsbD 1 then uartSendint host 0b0010 s else s -- THR empty interrupt
  (printed, { s with txRequired := false })

/-- `uart_w` next to the thread of `uart_loop`, with what that prints: where the write finds
    `tx_required`, its spin lock holds it until an iteration has emptied the buffer. -/
def uartWrite (host : UartHost) (offset : Nat) (data : BitVec 8) (s : UartState) :
    List (BitVec 8) × UartState :=
  if offset = 0 then
    let s := uartTransmitLock (s.setReg 0 data)
    let r := if s.txRequired then uartLoop host s else ([], s)
    (r.1, uartTransmitData data r.2)
  else ([], uartW offset data s)

/-- Where the lock is free, this is `uart_w` alone. -/
theorem uartWrite_of_free (host : UartHost) (offset : Nat) (data : BitVec 8) {s : UartState}
    (h : s.txRequired = false) : uartWrite host offset data s = ([], uartW offset data s) := by
  by_cases hoff : offset = 0
  · have hlock : (uartTransmitLock (s.setReg 0 data)).txRequired = false := by
      unfold uartTransmitLock
      split <;> exact h
    subst hoff
    simp only [uartWrite, hlock, ↓reduceIte, Bool.false_eq_true]
    rfl
  · simp only [uartWrite, if_neg hoff]

end RvEmu
