import RvEmu.Native.Memory

/-!
# Address translation

The page table walk, the TLB, and the virtual memory accessors built on them
(`mem.cpp`, `mem.ipp`). `memStatus` carries the kind of access into these
functions (true for a load, false for an instruction fetch) and an access fault
out of them.
-/

namespace RvEmu

variable {δ : Type}

/-- `UINT64_ALL_ONES << n` -/
def pageMask (n : Nat) : BitVec 64 := BitVec.allOnes 64 <<< n

/-- `tlb_clear` -/
def tlbClear : TLBStruct := ⟨0, fun _ => 0, fun _ => .zero⟩

/-- `tlb_hash` -/
def tlbHash (addr : BitVec 64) : BitVec 6 := ((106039 * addr) >>> 16).setWidth 6

/-- `tlb_add` -/
def tlbAdd (tlb : TLBStruct) (entry : TLBEntry) : TLBStruct :=
  let index := tlbHash entry.virtPage
  let old := tlb.tlbEntries index
  let count := if old.permissions ≠ 0 then
      Function.update tlb.sizeCount old.size (tlb.sizeCount old.size - 1)
    else tlb.sizeCount
  let count := Function.update count entry.size (count entry.size + 1)
  { maxEntrySize := (List.finRange 6).foldl (fun m i => if count i > 0 then i else m) 0
    sizeCount := count
    tlbEntries := Function.update tlb.tlbEntries index entry }

/-- The page table levels of `satp.MODE`; 0 for Bare and the reserved modes. -/
def satpLevels (satp : BitVec 64) : Nat :=
  if satp >>> 60 = 8 then 3
  else if satp >>> 60 = 9 then 4
  else if satp >>> 60 = 10 then 5
  else 0

/-- `PAGENUM(hs.satp & 0xFFFFFFFFFFF)` -/
def satpRoot (satp : BitVec 64) : BitVec 64 := (satp &&& 0xFFFFFFFFFFF) <<< 12

/-- The address of the level `i` PTE for `virtAddr` in the table at `a`. -/
def pteAddrAt (a virtAddr : BitVec 64) (i : Nat) : BitVec 64 :=
  a + 8 * ((virtAddr >>> (9 * i + 12)) &&& 0b111111111)

/-- `PAGENUM((pte >> 10) & ~(0b111ULL << 51))` -/
def nextTable (pte : BitVec 64) : BitVec 64 := ((pte >>> 10) &&& ~~~(0b111#64 <<< 51)) <<< 12

/-- `pte.ppn` as a physical address. -/
def ptePpn (pte : BitVec 64) : BitVec 64 := (pte &&& 0x3FFFFFFFFFFC00) <<< 2

/-- V clear, or the reserved combination W without R. -/
def pteInvalid (pte : BitVec 64) : Bool := !pte.getLsbD 0 || (pte &&& 0b110 == 0b100)

/-- The leaf checks of `page_table_walk`: R, W, X, then U, then the alignment of
    a superpage; true for a page fault. -/
def leafFault (hs : HartState) (isWrite currMemStatus : Bool) (i : Nat) (pte : BitVec 64) :
    Bool :=
  (if isWrite then !pte.getLsbD 2
   else (currMemStatus && !pte.getLsbD 1) ||
     (!currMemStatus && !(pte.getLsbD 3 || (hs.csr.mstatus.getLsbD 19 && pte.getLsbD 1)))) ||
  (if pte.getLsbD 4 then
     hs.privmode ≥ 1 && (!hs.csr.mstatus.getLsbD 18 || (!currMemStatus && !isWrite))
   else hs.privmode == 0) ||
  (0 < i && (ptePpn pte &&& ~~~pageMask (9 * i + 12)) != 0)

/-- The PTE with A, and for a write D, set. -/
def pteTouched (pte : BitVec 64) (isWrite : Bool) : BitVec 64 :=
  let pte := pte ||| (1#64 <<< 6)
  if isWrite then pte ||| (1#64 <<< 7) else pte

/-- The TLB entry made from a leaf PTE found at level `i`. -/
def leafEntry (virtAddr pteAddr pte : BitVec 64) (i : Nat) : TLBEntry where
  virtPage := virtAddr &&& pageMask (12 + 9 * i)
  phyPage := ptePpn pte
  pteAddr := pteAddr
  size := Fin.ofNat 6 i
  permissions := ((pte >>> 1) &&& 0b111).setWidth 8
  user := pte.getLsbD 4

/-- `page_table_walk` from a leaf PTE at level `i` on. -/
def walkLeaf (env : Env δ) (virtAddr : BitVec 64) (isWrite currMemStatus : Bool) (i : Nat)
    (pteAddr pte : BitVec 64) (s : Sys δ) : BitVec 64 × Sys δ :=
  if leafFault s.hs isWrite currMemStatus i pte then (0, s.setPageFault true)
  else
    let ppn := ptePpn pte
    let touch : Bool := ~~~(pte ||| (0b11#64 <<< 6)) != 0 -- A and D are not both set
    let pte := if touch then pteTouched pte isWrite else pte
    let s := if touch then memStore env .u64 s pteAddr pte else s
    if touch && s.hs.memStatus then (0, s)
    else
      let phyAddr := virtAddr &&& ~~~pageMask (12 + 9 * i)
      let s := s.setTlb (tlbAdd s.hs.tlb (leafEntry virtAddr pteAddr pte i))
      (phyAddr + ppn, s.setMemStatus false)

/-- The level loop of `page_table_walk`, with `i` levels left and the current
    table at `a`. -/
def walkLoop (env : Env δ) (virtAddr : BitVec 64) (isWrite currMemStatus : Bool) :
    Nat → BitVec 64 → Sys δ → BitVec 64 × Sys δ
  | 0, _, s => (0, s.setPageFault true)
  | i + 1, a, s =>
    let pteAddr := pteAddrAt a virtAddr i
    let r := memFetch env .u64 (s.setMemStatus currMemStatus) pteAddr
    let pte := r.1
    let s := r.2
    if s.hs.memStatus then (0, s) -- access fault due to PMP
    else if pteInvalid pte then (0, s.setPageFault true)
    else if pte &&& 0b1110 = 0 then
      walkLoop env virtAddr isWrite currMemStatus i (nextTable pte) s
    else walkLeaf env virtAddr isWrite currMemStatus i pteAddr pte s

/-- `page_table_walk` -/
def pageTableWalk (env : Env δ) (s : Sys δ) (virtAddr : BitVec 64) (isWrite : Bool) :
    BitVec 64 × Sys δ :=
  match satpLevels s.hs.csr.satp with
  | 0 => (virtAddr, s.setMemStatus false)
  | level => walkLoop env virtAddr isWrite s.hs.memStatus level (satpRoot s.hs.csr.satp) s

/-- The slot `tlb_find` probes for `virtAddr` at size `i`. -/
def tlbProbe (tlb : TLBStruct) (virtAddr : BitVec 64) (i : Nat) : TLBEntry :=
  tlb.tlbEntries (tlbHash (virtAddr &&& pageMask (12 + 9 * i)))

/-- The tests of one round of `tlb_find`. -/
def tlbMatches (hs : HartState) (virtAddr : BitVec 64) (perms : BitVec 8) (i : Nat)
    (e : TLBEntry) : Bool :=
  e.size.val == i && e.permissions != 0 &&
  (virtAddr ^^^ e.virtPage) < (1#64 <<< (12 + 9 * i)) &&
  perms &&& e.permissions != 0 &&
  !(hs.privmode == 0 && !e.user) && -- U mode accessing S mode pages
  !(hs.privmode ≥ 1 && e.user && !hs.csr.mstatus.getLsbD 18) -- no SUM

/-- `tlb_find` from a matching entry on: set A and D, compose the address. -/
def tlbHit (env : Env δ) (s : Sys δ) (virtAddr : BitVec 64) (perms : BitVec 8) (i : Nat)
    (e : TLBEntry) : BitVec 64 × Sys δ :=
  let r := memFetch env .u64 s e.pteAddr
  let touch : Bool := ~~~(r.1 ||| (0b11#64 <<< 6)) != 0
  let s := if touch then
      memStore env .u64 r.2 e.pteAddr (pteTouched r.1 (perms &&& 0b010 != 0))
    else r.2
  if touch && s.hs.memStatus then (0, s.setMemStatus false)
  else (e.phyPage + (virtAddr &&& (BitVec.allOnes 64 >>> (64 - (12 + 9 * i)))), s)

/-- The loop of `tlb_find` over the sizes below `i`. -/
def tlbFindLoop (env : Env δ) (s : Sys δ) (virtAddr : BitVec 64) (perms : BitVec 8) :
    Nat → BitVec 64 × Sys δ
  | 0 => (0, s) -- TLB miss
  | i + 1 =>
    let e := tlbProbe s.hs.tlb virtAddr i
    if tlbMatches s.hs virtAddr perms i e then tlbHit env s virtAddr perms i e
    else tlbFindLoop env s virtAddr perms i

/-- `tlb_find` -/
def tlbFind (env : Env δ) (s : Sys δ) (virtAddr : BitVec 64) (perms : BitVec 8) :
    BitVec 64 × Sys δ :=
  if s.hs.csr.satp = 0 then (virtAddr, s)
  else tlbFindLoop env s virtAddr perms (s.hs.tlb.maxEntrySize.val + 1)

/-- `mstatus.MPP` -/
def mstatusMpp (mstatus : BitVec 64) : BitVec 2 := mstatus.extractLsb' 11 2

/-- MPRV is set and MPP is not M. -/
def mprvActive (mstatus : BitVec 64) : Bool := mstatus.getLsbD 17 && mstatusMpp mstatus != 3

/-- `tlb_find`, then `page_table_walk` on a miss: `none` if the walk faults. -/
def translate (env : Env δ) (s : Sys δ) (addr : BitVec 64) (perms : BitVec 8)
    (isWrite : Bool) : Option (BitVec 64) × Sys δ :=
  let r := tlbFind env s addr perms
  if r.1 = 0 then
    let currMemStatus := r.2.hs.memStatus
    let w := pageTableWalk env r.2 addr isWrite
    if w.2.hs.pageFault || w.2.hs.memStatus then (none, w.2)
    else (some w.1, w.2.setMemStatus currMemStatus)
  else (some r.1, r.2)

/-- `virt_mem_fetch<T>` below the MPRV test. -/
def virtMemFetchAt (env : Env δ) (w : Width) (s : Sys δ) (addr : BitVec 64) :
    BitVec 64 × Sys δ :=
  match translate env s addr (if s.hs.memStatus then 0b001 else 0b100) false with
  | (none, s) => (0, s)
  | (some phyAddr, s) => memFetch env w s phyAddr

/-- `virt_mem_fetch<T>` -/
def virtMemFetch (env : Env δ) (w : Width) (s : Sys δ) (addr : BitVec 64) :
    BitVec 64 × Sys δ :=
  if s.hs.privmode = 3 then
    if !(s.hs.memStatus && mprvActive s.hs.csr.mstatus) then memFetch env w s addr
    else
      let r := virtMemFetchAt env w (s.setPrivmode (mstatusMpp s.hs.csr.mstatus)) addr
      (r.1, r.2.setPrivmode 3)
  else virtMemFetchAt env w s addr

/-- `virt_mem_store<T>` below the MPRV test. -/
def virtMemStoreAt (env : Env δ) (w : Width) (s : Sys δ) (addr data : BitVec 64) : Sys δ :=
  match translate env s addr 0b010 true with
  | (none, s) => s
  | (some phyAddr, s) => memStore env w s phyAddr data

/-- `virt_mem_store<T>` -/
def virtMemStore (env : Env δ) (w : Width) (s : Sys δ) (addr data : BitVec 64) : Sys δ :=
  if s.hs.privmode = 3 then
    if !mprvActive s.hs.csr.mstatus then memStore env w s addr data
    else
      (virtMemStoreAt env w (s.setPrivmode (mstatusMpp s.hs.csr.mstatus)) addr data).setPrivmode 3
  else virtMemStoreAt env w s addr data

end RvEmu
