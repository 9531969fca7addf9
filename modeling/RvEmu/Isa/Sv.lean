import Mathlib.Logic.Function.Basic

/-!
# Virtual memory

The page tables of Sv39, Sv48 and Sv57 and the addresses they translate to, as the
privileged architecture gives them and without reference to the emulator.
-/

namespace RvEmu.Isa

inductive SvMode where
  | sv39 | sv48 | sv57
  deriving DecidableEq, Repr

namespace SvMode

/-- The value of `satp.MODE`. -/
def encoding : SvMode → BitVec 4
  | .sv39 => 8 | .sv48 => 9 | .sv57 => 10

/-- The depth of the tree of page tables. -/
def levels : SvMode → Nat
  | .sv39 => 3 | .sv48 => 4 | .sv57 => 5

/-- The highest bit that is translated; the bits above it must equal it. -/
def topBit : SvMode → Nat
  | .sv39 => 38 | .sv48 => 47 | .sv57 => 56

end SvMode

/-- `satp.MODE` -/
def satpMode (satp : BitVec 64) : BitVec 4 := satp.extractLsb' 60 4

/-- `satp.PPN` -/
def satpPpn (satp : BitVec 64) : BitVec 44 := satp.extractLsb' 0 44

/-- `va.VPN[i]` -/
def vpn (va : BitVec 64) (i : Nat) : BitVec 9 := va.extractLsb' (12 + 9 * i) 9

/-- All bits from the top translated one on are equal. -/
def Canonical (mode : SvMode) (va : BitVec 64) : Prop :=
  ∀ k < 64, mode.topBit ≤ k → va.getLsbD k = va.getLsbD mode.topBit

/-- The canonical address with the same translated bits. -/
def canonicalAlias (mode : SvMode) (va : BitVec 64) : BitVec 64 :=
  (va.setWidth (mode.topBit + 1)).signExtend 64

/-! ## Page table entries -/

namespace Pte

variable (pte : BitVec 64)

def v : Bool := pte.getLsbD 0

def r : Bool := pte.getLsbD 1

def w : Bool := pte.getLsbD 2

def x : Bool := pte.getLsbD 3

def ppn : BitVec 44 := pte.extractLsb' 10 44

/-- The reserved bits 54 to 60. -/
def reserved : BitVec 7 := pte.extractLsb' 54 7

/-- A pointer to the next level of the page table. -/
def isPointer : Bool := v pte && !r pte && !w pte && !x pte

/-- Valid, and readable or executable; writable pages must be readable. -/
def isLeaf : Bool := v pte && (r pte || x pte) && !(w pte && !r pte)

end Pte

/-- The physical address of a page. -/
def pageAddress (ppn : BitVec 44) : BitVec 64 := (ppn ++ 0#12).setWidth 64

/-- The physical address of entry `n` of the table on page `ppn`. -/
def pteAddress (ppn : BitVec 44) (n : BitVec 9) : BitVec 64 := (ppn ++ n ++ 0#3).setWidth 64

/-! ## Translation -/

section Walk

variable (ptes : BitVec 64 → BitVec 64) (va : BitVec 64)

/-- `LeafAt ptes va n ppn i a`: from the table on page `ppn`, with `n` levels left, the
    VPN fields of `va` lead over pointers to a leaf of level `i` at the address `a`. -/
inductive LeafAt : Nat → BitVec 44 → Nat → BitVec 64 → Prop
  | leaf (n : Nat) (ppn : BitVec 44)
    (h : Pte.isLeaf (ptes (pteAddress ppn (vpn va n))) = true) :
    LeafAt (n + 1) ppn n (pteAddress ppn (vpn va n))
  | pointer (n : Nat) (ppn : BitVec 44) (i : Nat) (a : BitVec 64)
    (h : Pte.isPointer (ptes (pteAddress ppn (vpn va n))) = true)
    (hrest : LeafAt n (Pte.ppn (ptes (pteAddress ppn (vpn va n)))) i a) :
    LeafAt (n + 1) ppn i a

/-- The addresses of the entries that are read on the way. -/
inductive ReadAt : Nat → BitVec 44 → BitVec 64 → Prop
  | here (n : Nat) (ppn : BitVec 44) : ReadAt (n + 1) ppn (pteAddress ppn (vpn va n))
  | pointer (n : Nat) (ppn : BitVec 44) (a : BitVec 64)
    (h : Pte.isPointer (ptes (pteAddress ppn (vpn va n))) = true)
    (hrest : ReadAt n (Pte.ppn (ptes (pteAddress ppn (vpn va n)))) a) :
    ReadAt (n + 1) ppn a

end Walk

/-- The page numbers of a superpage are aligned to its level. -/
def Aligned (ppn : BitVec 44) (i : Nat) : Prop := ∀ k < 9 * i, ppn.getLsbD k = false

/-- The mask of the offset within a page of level `i`. -/
def offsetMask (i : Nat) : BitVec 64 := ~~~(BitVec.allOnes 64 <<< (12 + 9 * i))

/-- The address of the page, with the bits of the offset replaced by those of `va`. -/
def translated (ppn : BitVec 44) (va : BitVec 64) (i : Nat) : BitVec 64 :=
  pageAddress ppn &&& ~~~offsetMask i ||| va &&& offsetMask i

end RvEmu.Isa
