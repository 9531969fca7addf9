import Mathlib.Data.List.Pairwise
import RvEmu.Native.Elf

/-!
# The memory behind `load_elf`

A segment has `p_filesz` bytes in the file and takes up `p_memsz` bytes of memory, the rest
of which has to be zero. `load_elf` reads `p_memsz` bytes of the file, and it leaves out
the segments below RAM before it adds `mem_offset`.

## Key results

- `loadSegments_eq`: the loop over the program headers copies the blocks of the segments
- `elfLoaded_iff`: for which files the memory is as it has to be
-/

namespace RvEmu

/-- The address that byte `i` of the segment goes to. -/
def segmentAddr (memOffset : BitVec 64) (phdr : GElfPhdr) (i : Nat) : Nat :=
  (loadAddr memOffset phdr).toNat + i

/-- The segment takes up the address. -/
def InSegment (memOffset : BitVec 64) (phdr : GElfPhdr) (a : Nat) : Prop :=
  (loadAddr memOffset phdr).toNat ≤ a ∧ a < (loadAddr memOffset phdr).toNat + phdr.pMemsz.toNat

/-- Two segments that are to be loaded take up different addresses. -/
def SegmentsApart (memOffset : BitVec 64) (p q : GElfPhdr) : Prop :=
  p.pType = ptLoad → q.pType = ptLoad →
    ∀ a, ¬ (InSegment memOffset p a ∧ InSegment memOffset q a)

instance (memOffset : BitVec 64) : Std.Symm (SegmentsApart memOffset) where
  symm _ _ h hq hp a hcovers := h hp hq a hcovers.symm

/-- An ELF file with these contents, whose segments are disjoint, lie in RAM and in the file,
    and are no larger in the file than in memory. `libelf` opens it, and `pread` returns
    what the file has of the bytes that are asked for. -/
structure ElfWellFormed (memSize : Nat) (memOffset : BitVec 64) (contents : List (BitVec 8))
    (file : ElfFile) : Prop where
  version : file.version = true
  begins : file.begins = true
  kindElf : file.kindElf = true
  pread : ∀ count offset : BitVec 64, offset.toNat ≤ contents.length →
    file.pread count offset = some ((contents.drop offset.toNat).take count.toNat)
  apart : file.phdrs.Pairwise (SegmentsApart memOffset)
  inRam : ∀ p ∈ file.phdrs, p.pType = ptLoad →
    (loadAddr memOffset p).toNat + p.pMemsz.toNat ≤ memSize
  filesz : ∀ p ∈ file.phdrs, p.pType = ptLoad → p.pFilesz ≤ p.pMemsz
  inFile : ∀ p ∈ file.phdrs, p.pType = ptLoad →
    p.pOffset.toNat + p.pFilesz.toNat ≤ contents.length

/-- The memory holds the bytes of each segment, zeroes behind them, and zeroes in the RAM
    outside of the segments. -/
structure ElfLoaded (memSize : Nat) (memOffset : BitVec 64) (contents : List (BitVec 8))
    (file : ElfFile) (mem : Nat → BitVec 8) : Prop where
  bytes : ∀ p ∈ file.phdrs, p.pType = ptLoad → ∀ i < p.pFilesz.toNat,
    mem (segmentAddr memOffset p i) = contents.getD (p.pOffset.toNat + i) 0
  zeroes : ∀ p ∈ file.phdrs, p.pType = ptLoad → ∀ i, p.pFilesz.toNat ≤ i → i < p.pMemsz.toNat →
    mem (segmentAddr memOffset p i) = 0
  outside : ∀ a < memSize,
    (∀ p ∈ file.phdrs, p.pType = ptLoad → ¬ InSegment memOffset p a) → mem a = 0

/-- What follows a segment in the file, as far as the segment reaches in memory, is zero or
    behind the end of the file; a segment below RAM holds zeroes. -/
structure ElfCondition (contents : List (BitVec 8)) (file : ElfFile) : Prop where
  follows : ∀ p ∈ file.phdrs, p.pType = ptLoad → 0x80000000 ≤ p.pPaddr → ∀ i,
    p.pFilesz.toNat ≤ i → i < p.pMemsz.toNat → contents.getD (p.pOffset.toNat + i) 0 = 0
  below : ∀ p ∈ file.phdrs, p.pType = ptLoad → p.pPaddr < 0x80000000 → ∀ i < p.pFilesz.toNat,
    contents.getD (p.pOffset.toNat + i) 0 = 0

/-! ## The loop over the program headers -/

/-- The program header is not skipped. -/
def loaded (phdr : GElfPhdr) : Bool := phdr.pType = ptLoad ∧ 0x80000000 ≤ phdr.pPaddr

/-- What `load_elf` copies for a segment. -/
def segmentBlock (memOffset : BitVec 64) (contents : List (BitVec 8)) (phdr : GElfPhdr) :
    Blit.Block (BitVec 8) where
  dest := (loadAddr memOffset phdr).toNat
  data := (contents.drop phdr.pOffset.toNat).take phdr.pMemsz.toNat

section Loop

variable {file : ElfFile} {memOffset : BitVec 64} {contents : List (BitVec 8)}
  {phdrs : List GElfPhdr} {mem : Nat → BitVec 8}

theorem loaded_iff {p : GElfPhdr} :
    loaded p = true ↔ p.pType = ptLoad ∧ 0x80000000 ≤ p.pPaddr := decide_eq_true_iff

/-- Where no read fails, the loop copies the blocks of the segments that are not skipped. -/
theorem loadSegments_eq (hpread : ∀ p ∈ phdrs, loaded p = true → file.pread p.pMemsz p.pOffset =
      some ((contents.drop p.pOffset.toNat).take p.pMemsz.toNat)) (fileSize : BitVec 64) :
    ∃ size, loadSegments file memOffset phdrs mem fileSize = (some size,
      ((phdrs.filter loaded).map (segmentBlock memOffset contents)).foldl Blit.blit mem) := by
  induction phdrs generalizing mem fileSize with
  | nil => exact ⟨fileSize, rfl⟩
  | cons p phdrs ih =>
    rw [List.forall_mem_cons] at hpread
    obtain ⟨hp, hrest⟩ := hpread
    rw [loadSegments]
    by_cases hload : loaded p = true
    · obtain ⟨htype, hram⟩ := loaded_iff.mp hload
      rw [if_neg (not_not.mpr htype), if_neg (BitVec.not_lt.mpr hram), hp hload,
        List.filter_cons_of_pos hload]
      exact ih hrest _
    · have hskip := @ih mem hrest fileSize
      rw [List.filter_cons_of_neg hload]
      by_cases htype : p.pType = ptLoad
      · have hbelow : p.pPaddr < 0x80000000 :=
          BitVec.not_le.mp fun hram => hload (loaded_iff.mpr ⟨htype, hram⟩)
        rw [if_neg (not_not.mpr htype), if_pos hbelow]
        exact hskip
      · rw [if_pos htype]
        exact hskip

end Loop

section Memory

variable {memSize : Nat} {file : ElfFile} {memOffset : BitVec 64} {contents : List (BitVec 8)}

/-- The memory behind `load_elf`, from zeroed memory. -/
def loadedMem (memOffset : BitVec 64) (contents : List (BitVec 8)) (file : ElfFile) :
    Nat → BitVec 8 :=
  ((file.phdrs.filter loaded).map (segmentBlock memOffset contents)).foldl Blit.blit fun _ => 0

theorem loadElf_mainMem (hfile : ElfWellFormed memSize memOffset contents file) (sigMode : Bool)
    (s : LoadState) (hzero : s.mainMem = fun _ => 0) :
    (loadElf file sigMode memOffset s).2.mainMem = loadedMem memOffset contents file := by
  have hpread : ∀ p ∈ file.phdrs, loaded p = true → file.pread p.pMemsz p.pOffset =
      some ((contents.drop p.pOffset.toNat).take p.pMemsz.toNat) := fun p hp hload =>
    hfile.pread _ _ (by have := hfile.inFile p hp (loaded_iff.mp hload).1; omega)
  obtain ⟨size, hloop⟩ := @loadSegments_eq file memOffset contents file.phdrs s.mainMem hpread 0
  have hsymbols : ∀ t : LoadState, (loadSymbols file t).mainMem = t.mainMem := by
    intro t
    unfold loadSymbols
    split
    · rfl
    · refine List.foldlRecOn (motive := fun u : LoadState => u.mainMem = t.mainMem) _ _ rfl
        fun u hu i _ => ?_
      unfold loadSymbol
      dsimp only
      split
      · exact hu
      · split <;> exact hu
  have hopen : ¬ (!true) = true := by decide
  unfold loadElf
  rw [hfile.version, hfile.begins, hfile.kindElf, hloop]
  dsimp only
  rw [if_neg hopen, if_neg hopen, if_neg hopen, hzero]
  split
  · exact hsymbols _
  · rfl

/-- A block covers no more than its segment. -/
theorem inSegment_of_covers {p : GElfPhdr} {a : Nat}
    (h : (segmentBlock memOffset contents p).Covers a) : InSegment memOffset p a := by
  obtain ⟨hlow, hhigh⟩ := h
  have hlen : (segmentBlock memOffset contents p).data.length ≤ p.pMemsz.toNat :=
    List.length_take_le _ _
  exact ⟨hlow, by
    show a < (segmentBlock memOffset contents p).dest + _
    omega⟩

/-- Memory that no loaded segment takes up stays zero. -/
theorem loadedMem_outside {a : Nat}
    (h : ∀ p ∈ file.phdrs, loaded p = true → ¬ InSegment memOffset p a) :
    loadedMem memOffset contents file a = 0 := by
  refine Blit.foldl_blit_of_not_covers fun b hb hcovers => ?_
  obtain ⟨p, hp, rfl⟩ := List.mem_map.mp hb
  obtain ⟨hp, hload⟩ := List.mem_filter.mp hp
  exact h p hp hload (inSegment_of_covers hcovers)

/-- Nothing is loaded where a segment below RAM is to go. -/
theorem loadedMem_below (hfile : ElfWellFormed memSize memOffset contents file) {p : GElfPhdr}
    (hp : p ∈ file.phdrs) (htype : p.pType = ptLoad) (hlow : p.pPaddr < 0x80000000) {i : Nat}
    (hi : i < p.pMemsz.toNat) :
    loadedMem memOffset contents file (segmentAddr memOffset p i) = 0 := by
  have hregion : InSegment memOffset p (segmentAddr memOffset p i) :=
    ⟨Nat.le_add_right _ _, Nat.add_lt_add_left hi _⟩
  refine loadedMem_outside fun q hq hload hcovers => ?_
  have hne : p ≠ q := by
    rintro rfl
    exact BitVec.not_lt.mpr (loaded_iff.mp hload).2 hlow
  exact hfile.apart.forall hp hq hne htype (loaded_iff.mp hload).1 _ ⟨hregion, hcovers⟩

/-- A loaded segment holds `p_memsz` bytes of the file, as far as the file goes. -/
theorem loadedMem_segment (hfile : ElfWellFormed memSize memOffset contents file) {p : GElfPhdr}
    (hp : p ∈ file.phdrs) (hload : loaded p = true) {i : Nat} (hi : i < p.pMemsz.toNat) :
    loadedMem memOffset contents file (segmentAddr memOffset p i) =
      contents.getD (p.pOffset.toNat + i) 0 := by
  have hapart : (file.phdrs.filter loaded).Pairwise fun p q =>
      ∀ a, ¬ (InSegment memOffset p a ∧ InSegment memOffset q a) := by
    rw [List.pairwise_filter]
    exact hfile.apart.imp fun h hp hq => h (loaded_iff.mp hp).1 (loaded_iff.mp hq).1
  have hmem : p ∈ file.phdrs.filter loaded := List.mem_filter.mpr ⟨hp, hload⟩
  have hregion : InSegment memOffset p (segmentAddr memOffset p i) :=
    ⟨Nat.le_add_right _ _, Nat.add_lt_add_left hi _⟩
  unfold loadedMem
  rw [Blit.foldl_blit_of_mem (fun _ _ => inSegment_of_covers) hapart hmem hregion]
  refine (Blit.blit_dest_add (b := segmentBlock memOffset contents p) i).trans ?_
  rw [segmentBlock, List.getD_eq_getElem?_getD, List.getElem?_take_of_lt hi, List.getElem?_drop,
    List.getD_eq_getElem?_getD]

end Memory

/-- For every well-formed file, offset and setting, the memory behind `load_elf` is as it has
    to be exactly if the condition holds. -/
theorem elfLoaded_iff (memSize : Nat) (memOffset : BitVec 64) (contents : List (BitVec 8))
    (file : ElfFile) (hfile : ElfWellFormed memSize memOffset contents file) (sigMode : Bool)
    (s : LoadState) (hzero : s.mainMem = fun _ => 0) :
    ElfLoaded memSize memOffset contents file (loadElf file sigMode memOffset s).2.mainMem ↔
      ElfCondition contents file := by
  rw [loadElf_mainMem hfile sigMode s hzero]
  constructor
  · intro h
    refine ⟨fun p hp htype hram i hlow hhigh => ?_, fun p hp htype hlow i hi => ?_⟩
    · rw [← loadedMem_segment hfile hp (loaded_iff.mpr ⟨htype, hram⟩) hhigh]
      exact h.zeroes p hp htype i hlow hhigh
    · have hmemsz : i < p.pMemsz.toNat := Nat.lt_of_lt_of_le hi (hfile.filesz p hp htype)
      rw [← h.bytes p hp htype i hi]
      exact loadedMem_below hfile hp htype hlow hmemsz
  · intro h
    refine ⟨fun p hp htype i hi => ?_, fun p hp htype i hlow hhigh => ?_, fun a _ ha => ?_⟩
    · have hmemsz : i < p.pMemsz.toNat := Nat.lt_of_lt_of_le hi (hfile.filesz p hp htype)
      by_cases hram : 0x80000000 ≤ p.pPaddr
      · exact loadedMem_segment hfile hp (loaded_iff.mpr ⟨htype, hram⟩) hmemsz
      · rw [loadedMem_below hfile hp htype (BitVec.not_le.mp hram) hmemsz,
          h.below p hp htype (BitVec.not_le.mp hram) i hi]
    · by_cases hram : 0x80000000 ≤ p.pPaddr
      · rw [loadedMem_segment hfile hp (loaded_iff.mpr ⟨htype, hram⟩) hhigh,
          h.follows p hp htype hram i hlow hhigh]
      · exact loadedMem_below hfile hp htype (BitVec.not_le.mp hram) hhigh
    · exact loadedMem_outside fun p hp hload => ha p hp (loaded_iff.mp hload).1

/-- A file of 122 bytes: the header, one program header, and two bytes behind them, of which
    `p_filesz` belong to the segment. -/
private def elfContents (filesz : BitVec 8) : List (BitVec 8) := [
  0x7F, 0x45, 0x4C, 0x46, 2, 1, 1, 0, 0, 0, 0, 0, 0, 0, 0, 0,
  2, 0, 0xF3, 0, 1, 0, 0, 0, 0, 0, 0, 0x80, 0, 0, 0, 0,
  64, 0, 0, 0, 0, 0, 0, 0, 0, 0, 0, 0, 0, 0, 0, 0,
  0, 0, 0, 0, 64, 0, 56, 0, 1, 0, 64, 0, 0, 0, 0, 0,
  1, 0, 0, 0, 7, 0, 0, 0, 120, 0, 0, 0, 0, 0, 0, 0,
  0, 0, 0, 0x80, 0, 0, 0, 0, 0, 0, 0, 0x80, 0, 0, 0, 0,
  filesz, 0, 0, 0, 0, 0, 0, 0, 2, 0, 0, 0, 0, 0, 0, 0,
  1, 0, 0, 0, 0, 0, 0, 0, 0x13, 0x37]

/-- The file as `libelf` and `pread` report it. -/
private def elfFile (filesz : BitVec 8) : ElfFile where
  version := true
  begins := true
  kindElf := true
  phdrs := [⟨ptLoad, 120, 0x80000000, filesz.setWidth 64, 2⟩]
  shdrs := []
  sym _ _ := ⟨0, 0⟩
  strptr _ _ := ""
  read count := some ((elfContents filesz).take count.toNat)
  pread count offset := some (((elfContents filesz).drop offset.toNat).take count.toNat)

private theorem elfFile_wellFormed {filesz : BitVec 8} (h : filesz ≤ 2) :
    ElfWellFormed 4096 0 (elfContents filesz) (elfFile filesz) where
  version := rfl
  begins := rfl
  kindElf := rfl
  pread _ _ _ := rfl
  apart := List.pairwise_singleton _ _
  inRam p hp _ := by
    rw [List.mem_singleton.mp hp]
    show (0x80000000 + 0 - 0x80000000 : BitVec 64).toNat + (2 : BitVec 64).toNat ≤ 4096
    decide
  filesz p hp _ := by
    rw [List.mem_singleton.mp hp]
    have hnat : filesz.toNat ≤ 2 := h
    show (filesz.setWidth 64).toNat ≤ 2
    rw [BitVec.toNat_setWidth]
    omega
  inFile p hp _ := by
    rw [List.mem_singleton.mp hp]
    have hnat : filesz.toNat ≤ 2 := h
    show 120 + (filesz.setWidth 64).toNat ≤ 122
    rw [BitVec.toNat_setWidth]
    omega

/-- The segment has all of its bytes in the file. -/
theorem elfLoaded_iff_full : ElfLoaded 4096 0 (elfContents 2) (elfFile 2)
    (loadElf (elfFile 2) false 0 ⟨fun _ => 0, 0, 0⟩).2.mainMem :=
  (elfLoaded_iff 4096 0 (elfContents 2) (elfFile 2) (elfFile_wellFormed (by decide)) false
    ⟨fun _ => 0, 0, 0⟩ rfl).mpr
    { follows := by
        intro p hp _ _ i hlow hhigh
        rw [List.mem_singleton.mp hp] at hlow hhigh
        exact absurd (Nat.lt_of_le_of_lt hlow hhigh) (Nat.lt_irrefl _)
      below := by
        intro p hp _ hlow
        rw [List.mem_singleton.mp hp] at hlow
        exact absurd hlow (by decide) }

/-- One byte of the segment is in the file; the byte behind it is loaded as well. -/
theorem elf_loads_behind : ElfWellFormed 4096 0 (elfContents 1) (elfFile 1) ∧
    ¬ ElfLoaded 4096 0 (elfContents 1) (elfFile 1)
      (loadElf (elfFile 1) false 0 ⟨fun _ => 0, 0, 0⟩).2.mainMem := by
  refine ⟨elfFile_wellFormed (by decide), fun h => ?_⟩
  have hzero := h.zeroes _ List.mem_cons_self rfl 1 (by decide) (by decide)
  exact absurd hzero (by decide +kernel)

end RvEmu
