import RvEmu.ForStd.Blit

/-!
# Loading ELF files

`elf.cpp`: `load_elf`. What `libelf` and the operating system report of the open file is
taken from outside; the bytes that a read copies to `main_mem` are a block of memory.
-/

namespace RvEmu

/-- The fields of `GElf_Phdr`; `load_elf` does not look at `p_filesz`. -/
structure GElfPhdr where
  pType : BitVec 32
  pOffset : BitVec 64
  pPaddr : BitVec 64
  pFilesz : BitVec 64
  pMemsz : BitVec 64

/-- The fields of `GElf_Shdr` that `load_elf` looks at. -/
structure GElfShdr where
  shType : BitVec 32
  shLink : BitVec 32
  shSize : BitVec 64
  shEntsize : BitVec 64

/-- The fields of `GElf_Sym` that `load_elf` looks at. -/
structure GElfSym where
  stName : BitVec 32
  stValue : BitVec 64

/-- The open file: what `libelf` makes of it, and the bytes that `read` and `pread` return,
    or none where they return -1. -/
structure ElfFile where
  version : Bool
  begins : Bool
  kindElf : Bool
  phdrs : List GElfPhdr
  shdrs : List GElfShdr
  sym : GElfShdr → Nat → GElfSym
  strptr : BitVec 32 → BitVec 32 → String
  read : BitVec 64 → Option (List (BitVec 8))
  pread : BitVec 64 → BitVec 64 → Option (List (BitVec 8))

/-- `main_mem` by index, and the symbols of the signature. -/
structure LoadState where
  mainMem : Nat → BitVec 8
  beginSignature : BitVec 64
  endSignature : BitVec 64

/-- `PT_LOAD` -/
def ptLoad : BitVec 32 := 1

/-- `SHT_SYMTAB` -/
def shtSymtab : BitVec 32 := 2

/-- `read(fd, main_mem + mem_offset, 0x200'0000)`, with its result as a `size_t`. -/
def loadFlat (file : ElfFile) (memOffset : BitVec 64) (s : LoadState) : BitVec 64 × LoadState :=
  match file.read 0x2000000 with
  | none => (-1, s)
  | some bytes =>
    (BitVec.ofNat 64 bytes.length,
      { s with mainMem := Blit.blit s.mainMem ⟨memOffset.toNat, bytes⟩ })

/-- `load_addr` -/
def loadAddr (memOffset : BitVec 64) (phdr : GElfPhdr) : BitVec 64 :=
  phdr.pPaddr + memOffset - 0x80000000

/-- The loop over the program headers; none if a read fails. -/
def loadSegments (file : ElfFile) (memOffset : BitVec 64) :
    List GElfPhdr → (Nat → BitVec 8) → BitVec 64 → Option (BitVec 64) × (Nat → BitVec 8)
  | [], mem, fileSize => (some fileSize, mem)
  | phdr :: phdrs, mem, fileSize =>
    if phdr.pType ≠ ptLoad then loadSegments file memOffset phdrs mem fileSize
    else if phdr.pPaddr < 0x80000000 then loadSegments file memOffset phdrs mem fileSize
    else
      match file.pread phdr.pMemsz phdr.pOffset with
      | none => (none, mem)
      | some bytes =>
        loadSegments file memOffset phdrs
          (Blit.blit mem ⟨(loadAddr memOffset phdr).toNat, bytes⟩)
          (fileSize + BitVec.ofNat 64 bytes.length)

/-- One symbol of the table. -/
def loadSymbol (file : ElfFile) (shdr : GElfShdr) (s : LoadState) (i : Nat) : LoadState :=
  let symbol := file.sym shdr i
  let symbolName := file.strptr shdr.shLink symbol.stName
  if symbolName = "begin_signature" then { s with beginSignature := symbol.stValue }
  else if symbolName = "end_signature" then { s with endSignature := symbol.stValue }
  else s

/-- The symbols of the first symbol table. -/
def loadSymbols (file : ElfFile) (s : LoadState) : LoadState :=
  match file.shdrs.find? (·.shType == shtSymtab) with
  | none => s
  | some shdr =>
    (List.range (shdr.shSize / shdr.shEntsize).toNat).foldl (loadSymbol file shdr) s

/-- `load_elf`, with the `size_t` that it returns. -/
def loadElf (file : ElfFile) (sigMode : Bool) (memOffset : BitVec 64) (s : LoadState) :
    BitVec 64 × LoadState :=
  if !file.version then (0, s)
  -- not an ELF file: treat it as a flat binary
  else if !file.begins then loadFlat file memOffset s
  else if !file.kindElf then loadFlat file memOffset s
  else
    match loadSegments file memOffset file.phdrs s.mainMem 0 with
    | (none, mem) => (0, { s with mainMem := mem })
    | (some fileSize, mem) =>
      let s := { s with mainMem := mem }
      (fileSize, if sigMode then loadSymbols file s else s)

end RvEmu
