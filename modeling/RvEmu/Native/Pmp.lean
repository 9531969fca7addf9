import RvEmu.Native.State

/-!
# Physical memory protection

`sync_exp_pmp`, which expands the PMP registers into address ranges, and the two
checks the memory accessors make on the expanded table (`mem.cpp`).
-/

namespace RvEmu

variable {δ : Type}

/-- `ffsll`: one plus the index of the lowest set bit, 0 if there is none. -/
def ffsll (x : BitVec 64) : Nat :=
  match (List.range 64).find? (fun i => x.getLsbD i) with
  | some i => i + 1
  | none => 0

/-- The bounds that one enabled entry of `sync_exp_pmp` covers; `rawPmpA` is
    the address matching mode of the entry. -/
def pmpBounds (env : Env δ) (p : PmpState) (i : Fin 16) (rawPmpA : BitVec 8) :
    BitVec 64 × BitVec 64 :=
  if rawPmpA = 1 then -- TOR
    (if i = 0 then 0 else p.pmpaddr (i - 1) <<< 2, p.pmpaddr i <<< 2)
  else if rawPmpA = 2 then -- NA4
    (p.pmpaddr i <<< 2, p.pmpaddr i <<< 2 + 4)
  else -- NAPOT
    let pmpAddr := p.pmpaddr i
    if pmpAddr ≠ 0xffffffffffffffff then
      let size := ffsll (~~~pmpAddr) - 1
      let lbound := env.u64Shl (pmpAddr >>> size) (size + 2)
      (lbound, lbound + env.u64Shl 1 (size + 2))
    else (0, 0xffffffffffffffff)

/-- `pmp_expanded[i]` after one round of the loop; a disabled entry keeps its
    other fields. -/
def expandPmp (env : Env δ) (p : PmpState) (i : Fin 16) : ExpPMP :=
  let rawPmpA := (p.pmpcfg i &&& 0b11000) >>> 3
  if rawPmpA = 0 then { p.pmpExpanded i with enable := false }
  else
    let b := pmpBounds env p i rawPmpA
    { enable := true
      lock := p.pmpcfg i >>> 7 == 1
      lbound := b.1
      ubound := b.2
      lxwr := p.pmpcfg i &&& 0b10000111 }

/-- The body of the loop of `sync_exp_pmp`. -/
def syncPmpEntry (env : Env δ) (p : PmpState) (i : Fin 16) : PmpState :=
  let e := expandPmp env p i
  let p := { p with pmpExpanded := Function.update p.pmpExpanded i e }
  if e.enable then
    let isRwx := e.lxwr == 0b111
    let p := if e.lbound < p.minLbound && !isRwx then { p with minLbound := e.lbound } else p
    let p := if e.ubound > p.maxUbound && !isRwx then { p with maxUbound := e.ubound } else p
    if e.lbound == 0 && e.ubound == 0xffffffffffffffff && isRwx then
      { p with pmpAllEnabled := true } else p
  else p

/-- `sync_exp_pmp` -/
def syncExpPmp (env : Env δ) (p : PmpState) : PmpState :=
  (List.finRange 16).foldl (syncPmpEntry env)
    { p with pmpAllEnabled := false, minLbound := 0xffffffffffffffff, maxUbound := 0 }

/-- The loop of `chk_pmp_range`, whose switch is that of `sync_exp_pmp`. -/
def chkPmpRangeLoop (env : Env δ) (p : PmpState) (privmode : BitVec 2) (addrl addrh : BitVec 64) :
    List (Fin 16) → BitVec 8
  | [] => 0xFF
  | ind :: is =>
    let pmpEntry := p.pmpcfg ind
    if pmpEntry &&& 0b11000 = 0 then chkPmpRangeLoop env p privmode addrl addrh is -- OFF
    else if privmode = 3 ∧ pmpEntry &&& (1#8 <<< 7) = 0 then -- not locked for M-mode access
      chkPmpRangeLoop env p privmode addrl addrh is
    else
      let b := pmpBounds env p ind ((pmpEntry >>> 3) &&& 0b11)
      let lowchk := b.1 ≤ addrl && addrl < b.2
      let hichk := b.1 ≤ addrh && addrh < b.2
      if lowchk && hichk then pmpEntry &&& 0b10000111 -- both bounds satisfied
      else if lowchk ^^ hichk then 0xF7 -- the range crosses the boundary
      else chkPmpRangeLoop env p privmode addrl addrh is

/-- `chk_pmp_range`, the check on the PMP registers themselves: `L0000XWR`, `0xFF` if
    no entry matches, `0xF7` if the range crosses the boundary of one. -/
def chkPmpRange (env : Env δ) (p : PmpState) (privmode : BitVec 2) (addrl addrh : BitVec 64) :
    BitVec 8 :=
  chkPmpRangeLoop env p privmode addrl addrh (List.finRange 16)

/-- Entries that are off, or unlocked in M-mode, take no part in a check. -/
def ExpPMP.active (e : ExpPMP) (privmode : BitVec 2) : Bool :=
  e.enable && (privmode != 3 || e.lock)

/-- `lbound <= addr && addr < ubound` -/
def ExpPMP.covers (e : ExpPMP) (addr : BitVec 64) : Bool :=
  e.lbound ≤ addr && addr < e.ubound

/-- The loop of `chk_pmp_exp`. -/
def chkPmpExpLoop (p : PmpState) (privmode : BitVec 2) (addr : BitVec 64) :
    List (Fin 16) → BitVec 16
  | [] => 0xFFF0
  | i :: is =>
    let thispmp := p.pmpExpanded i
    if thispmp.active privmode && thispmp.covers addr then
      (thispmp.lxwr.setWidth 16 <<< 6) + BitVec.ofNat 16 i
    else chkPmpExpLoop p privmode addr is

/-- `chk_pmp_exp`: `00L0000XWR<pmpno [5:0]>`, or `0xFFF0` if no entry matches. -/
def chkPmpExp (p : PmpState) (privmode : BitVec 2) (addr : BitVec 64) : BitVec 16 :=
  if p.pmpAllEnabled && (addr > p.maxUbound || addr < p.minLbound) then 0b111#16 <<< 6
  else chkPmpExpLoop p privmode addr (List.finRange 16)

/-- The loop of `chk_pmp_range_exp`. -/
def chkPmpRangeExpLoop (p : PmpState) (privmode : BitVec 2) (addrl addrh : BitVec 64) :
    List (Fin 16) → BitVec 8
  | [] => 0xFF
  | i :: is =>
    let thispmp := p.pmpExpanded i
    if thispmp.active privmode then
      let lowchk := thispmp.covers addrl
      let hichk := thispmp.covers addrh
      if lowchk && hichk then thispmp.lxwr -- both bounds satisfied
      else if lowchk ^^ hichk then 0xF7 -- the range crosses the boundary
      else chkPmpRangeExpLoop p privmode addrl addrh is
    else chkPmpRangeExpLoop p privmode addrl addrh is

/-- `chk_pmp_range_exp`: `L0000XWR`, `0xFF` if no entry matches, `0xF7` if the
    range crosses the boundary of one. -/
def chkPmpRangeExp (p : PmpState) (privmode : BitVec 2) (addrl addrh : BitVec 64) : BitVec 8 :=
  if p.pmpAllEnabled && (addrl > p.maxUbound || addrh < p.minLbound) then 0b111
  else chkPmpRangeExpLoop p privmode addrl addrh (List.finRange 16)

end RvEmu
