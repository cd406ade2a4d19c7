import PqcScan.Probes.Records

/-!
# Imports of a PE image

`_pe_imports` of `fs_binary_crypto.py`: the names of the imported DLLs, by way of the
section that holds an address.
-/

namespace PqcScan
namespace Probes
namespace FsBinaryCrypto

open Library Python

/-! ## The reader -/

/-- `(vaddr, vsize, rawptr, rawsize)` of a section. -/
structure PeSection where
  vaddr : Nat
  vsize : Nat
  rawptr : Nat
  rawsize : Nat
  deriving DecidableEq

/-- The address lies in the section. -/
def PeSection.covers (candidate : PeSection) (rva : Nat) : Bool :=
  candidate.vaddr ≤ rva && rva < candidate.vaddr + max candidate.vsize candidate.rawsize

/-- `rva_to_off`. -/
def rvaToOff (sections : List PeSection) (rva : Nat) : Option Nat :=
  (sections.find? fun candidate => candidate.covers rva).map fun found =>
    found.rawptr + (rva - found.vaddr)

/-- `<8sIIII`. -/
def peSectionWidths : List Nat := [8, 4, 4, 4, 4]

/-- Read a section header. -/
def readPeSection (chunk : Bytes) : Option PeSection :=
  (ByteOrder.little.unpackAll peSectionWidths chunk).map fun fields =>
    ⟨fields.getD 2 0, fields.getD 1 0, fields.getD 4 0, fields.getD 3 0⟩

/-- `<IIIII`. -/
def descriptorWidths : List Nat := [4, 4, 4, 4, 4]

/-- The loop over the import descriptors. -/
def importNames (data : Bytes) (sections : List PeSection) : List Bytes → List (List Char)
  | [] => []
  | desc :: descs =>
      match ByteOrder.little.unpackAll descriptorWidths desc with
      | none => []
      | some fields =>
          let oft := fields.getD 0 0
          let nameRva := fields.getD 3 0
          let firstThunk := fields.getD 4 0
          if oft = 0 ∧ nameRva = 0 ∧ firstThunk = 0 then []
          else
            let later := importNames data sections descs
            match rvaToOff sections nameRva with
            | none => later
            | some noff =>
                let name := cstr data noff none
                if name = [] then later else name :: later

/-- `<HHIIIHH`. -/
def coffWidths : List Nat := [2, 2, 4, 4, 4, 2, 2]

/-- `MZ`. -/
def dosMagic : Bytes := [0x4D, 0x5A]

/-- `PE\x00\x00`. -/
def peMagic : Bytes := [0x50, 0x45, 0, 0]

/-- Where the data directories begin in an optional header, by its magic. -/
def directoryOffset (magic : Nat) : Option Nat :=
  if magic = 0x20B then some 112 else if magic = 0x10B then some 96 else none

/-- The import directory and the sections: what is read before the descriptors. -/
def peHeaders (data : Bytes) : Option (Nat × List PeSection) :=
  if data.length < 0x40 ∨ data.take 2 ≠ dosMagic then none
  else do
    let offset ← ByteOrder.little.unpackAll [4] ((data.drop 0x3C).take 4)
    let eLfanew := offset.getD 0 0
    if (data.drop eLfanew).take 4 ≠ peMagic then none
    else
      let coff := eLfanew + 4
      let header ← ByteOrder.little.unpackAll coffWidths ((data.drop coff).take 20)
      let numSections := header.getD 1 0
      let optSize := header.getD 5 0
      let opt := coff + 20
      let magic ← ByteOrder.little.unpackAll [2] ((data.drop opt).take 2)
      let directories ← directoryOffset (magic.getD 0 0)
      let directory ← ByteOrder.little.unpackAll [4, 4]
        ((data.drop (opt + directories + 8)).take 8)
      some (directory.getD 0 0, (entries data (opt + optSize) 40 24
        (min numSections 96)).filterMap readPeSection)

/-- `_pe_imports`. -/
def peImports (data : Bytes) : List (List Char) :=
  match peHeaders data with
  | none => []
  | some (importRva, sections) =>
      if importRva = 0 then []
      else
        match rvaToOff sections importRva with
        | none => []
        | some table => importNames data sections (entries data table 20 20 1024)

/-! ## Well-formed images -/

/-- The fields of the COFF header. -/
structure CoffHeader where
  machine : Nat
  numSections : Nat
  timestamp : Nat
  symbols : Nat
  numSymbols : Nat
  optSize : Nat
  characteristics : Nat

/-- The numbers of the header in their order. -/
def CoffHeader.values (header : CoffHeader) : List Nat :=
  [header.machine, header.numSections, header.timestamp, header.symbols,
    header.numSymbols, header.optSize, header.characteristics]

/-- The fields of a section header. -/
structure PeSectionHeader extends PeSection where
  name : Nat

/-- The numbers of a section header in their order. -/
def PeSectionHeader.values (header : PeSectionHeader) : List Nat :=
  [header.name, header.vsize, header.vaddr, header.rawsize, header.rawptr]

/-- The fields of an import descriptor. -/
structure Descriptor where
  originalFirstThunk : Nat
  timestamp : Nat
  forwarderChain : Nat
  nameRva : Nat
  firstThunk : Nat

/-- The numbers of a descriptor in their order. -/
def Descriptor.values (descriptor : Descriptor) : List Nat :=
  [descriptor.originalFirstThunk, descriptor.timestamp, descriptor.forwarderChain,
    descriptor.nameRva, descriptor.firstThunk]

/-- The descriptor that ends the table. -/
def Descriptor.null : Descriptor := ⟨0, 0, 0, 0, 0⟩

/-- The data is a PE image with an import directory and these sections. -/
structure PeFile (data : Bytes) where
  lfanew : Nat
  isPlus : Bool
  coff : CoffHeader
  importRva : Nat
  importSize : Nat
  sections : List PeSectionHeader
  long : 0x40 ≤ data.length
  begins : Lies data 0 dosMagic
  points : Lies data 0x3C (ByteOrder.little.packAll [4] [lfanew])
  lfanew_small : Fits [4] [lfanew]
  signed : Lies data lfanew peMagic
  coff_lies : Lies data (lfanew + 4) (ByteOrder.little.packAll coffWidths coff.values)
  coff_fits : Fits coffWidths coff.values
  magic : Lies data (lfanew + 24)
    (ByteOrder.little.packAll [2] [if isPlus then 0x20B else 0x10B])
  directory : Lies data (lfanew + 24 + (if isPlus then 112 else 96) + 8)
    (ByteOrder.little.packAll [4, 4] [importRva, importSize])
  directory_fits : Fits [4, 4] [importRva, importSize]
  imports : importRva ≠ 0
  counted : coff.numSections = sections.length
  few : sections.length ≤ 96
  sections_fit : ∀ candidate ∈ sections, Fits peSectionWidths candidate.values
  listed : ∀ index candidate, sections[index]? = some candidate →
    Lies data (lfanew + 24 + coff.optSize + index * 40)
      (ByteOrder.little.packAll peSectionWidths candidate.values)
  apart : sections.Pairwise fun left right =>
    ∀ rva, left.covers rva = true → right.covers rva = false

namespace PeFile

variable {data : Bytes} (file : PeFile data)

/-- The address is mapped from a place of the file. -/
def Maps (rva place : Nat) : Prop :=
  ∃ candidate ∈ file.sections, candidate.covers rva = true ∧
    place = candidate.rawptr + (rva - candidate.vaddr)

/-- The name lies at the address, with its NUL. -/
structure NameAt (rva : Nat) (name : List Char) : Prop extends PlainName name where
  lies : ∃ place, file.Maps rva place ∧ Lies data place (nameBytes name ++ [0])

end PeFile

/-- The import table of an image. -/
structure ImportTable {data : Bytes} (file : PeFile data) where
  place : Nat
  descriptors : List Descriptor
  mapped : file.Maps file.importRva place
  descriptors_fit : ∀ descriptor ∈ descriptors, Fits descriptorWidths descriptor.values
  lies : Lies data place ((descriptors ++ [Descriptor.null]).map fun descriptor =>
    ByteOrder.little.packAll descriptorWidths descriptor.values).flatten
  nonnull : ∀ descriptor ∈ descriptors, descriptor.nameRva ≠ 0
  few : descriptors.length < 1024

/-! ## Reading a well-formed image -/

theorem find?_of_pairwise {ι : Type} {sections : List ι} {holds : ι → Bool}
    (apart : sections.Pairwise fun left right => holds left = true → holds right = false)
    {found : ι} (member : found ∈ sections) (here : holds found = true) :
    sections.find? holds = some found := by
  induction sections with
  | nil => cases member
  | cons first sections inductionHypothesis =>
      rw [List.pairwise_cons] at apart
      rcases List.mem_cons.mp member with rfl | later
      · exact List.find?_cons_of_pos here
      · have other : ¬ holds first = true := fun before => by
          rw [apart.1 found later before] at here
          cases here
        rw [List.find?_cons_of_neg other]
        exact inductionHypothesis apart.2 later

namespace PeFile

variable {data : Bytes} (file : PeFile data)

theorem Maps.rvaToOff_eq {rva place : Nat} (maps : file.Maps rva place) :
    rvaToOff (file.sections.map PeSectionHeader.toPeSection) rva = some place := by
  obtain ⟨candidate, member, covers, rfl⟩ := maps
  have first : (file.sections.find? fun candidate => candidate.covers rva) =
      some candidate :=
    find?_of_pairwise (file.apart.imp fun apart => apart rva) member covers
  rw [rvaToOff, List.find?_map, Function.comp_def, first]
  rfl

theorem peHeaders_eq : peHeaders data =
    some (file.importRva, file.sections.map PeSectionHeader.toPeSection) := by
  have magic : data.take 2 = dosMagic := by
    have window := file.begins.window
    rwa [List.drop_zero] at window
  have offset : ByteOrder.little.unpackAll [4] ((data.drop 0x3C).take 4) =
      some [file.lfanew] :=
    file.lfanew_small.unpackAll_window rfl file.points
  have signed : (data.drop file.lfanew).take 4 = peMagic := file.signed.window
  have coff : ByteOrder.little.unpackAll coffWidths
      ((data.drop (file.lfanew + 4)).take 20) =
      some file.coff.values := file.coff_fits.unpackAll_window rfl file.coff_lies
  have kind : Fits [2] [if file.isPlus then 0x20B else 0x10B] := by
    cases file.isPlus <;> decide
  have read : ByteOrder.little.unpackAll [2] ((data.drop (file.lfanew + 4 + 20)).take 2) =
      some [if file.isPlus then 0x20B else 0x10B] := kind.unpackAll_window rfl file.magic
  have known : directoryOffset (if file.isPlus then 0x20B else 0x10B) =
      some (if file.isPlus then 112 else 96) := by
    cases file.isPlus <;> rfl
  have directory : ByteOrder.little.unpackAll [4, 4]
      ((data.drop (file.lfanew + 4 + 20 + (if file.isPlus then 112 else 96) + 8)).take
        8) =
      some [file.importRva, file.importSize] :=
    file.directory_fits.unpackAll_window rfl file.directory
  have table := entries_spread (show 24 = peSectionWidths.sum from rfl) file.sections_fit
    file.listed 96
  rw [List.take_of_length_le file.few, ← file.counted] at table
  have kept : (file.sections.map fun candidate => ByteOrder.little.packAll peSectionWidths
      candidate.values).filterMap readPeSection =
      file.sections.map PeSectionHeader.toPeSection := by
    rw [List.filterMap_map, ← List.filterMap_eq_map]
    refine List.filterMap_congr fun candidate inside => ?_
    rw [Function.comp_apply, readPeSection,
      (file.sections_fit candidate inside).unpackAll_packAll]
    rfl
  rw [peHeaders, if_neg (by
    rw [not_or]
    exact ⟨Nat.not_lt.mpr file.long, fun other => other magic⟩), offset]
  simp only [bind, Option.bind, List.getD_cons_zero]
  rw [if_neg (by rw [signed]; exact fun other => other rfl), coff]
  simp only [List.getD_cons_zero, CoffHeader.values, List.getD_cons_succ]
  rw [read]
  simp only [List.getD_cons_zero]
  rw [known]
  simp only []
  rw [directory]
  simp only [List.getD_cons_zero]
  refine congrArg some (congrArg (Prod.mk file.importRva) ?_)
  exact (congrArg (List.filterMap readPeSection) table).trans kept

end PeFile

theorem importNames_eq {data : Bytes} {file : PeFile data} {descriptors : List Descriptor}
    {names : List (List Char)} {rest : List Bytes}
    (fit : ∀ descriptor ∈ descriptors, Fits descriptorWidths descriptor.values)
    (nonnull : ∀ descriptor ∈ descriptors, descriptor.nameRva ≠ 0)
    (named : List.Forall₂ (fun descriptor name => file.NameAt descriptor.nameRva name)
      descriptors names) :
    importNames data (file.sections.map PeSectionHeader.toPeSection)
      ((descriptors ++ [Descriptor.null]).map (fun descriptor =>
        ByteOrder.little.packAll descriptorWidths descriptor.values) ++ rest) =
          names := by
  induction named with
  | nil =>
      have fits : Fits descriptorWidths Descriptor.null.values := by decide
      rw [List.nil_append, List.map_singleton, List.singleton_append, importNames,
        fits.unpackAll_packAll]
      rfl
  | @cons descriptor name descriptors names holds named inductionHypothesis =>
      obtain ⟨fits, fit⟩ := List.forall_mem_cons.mp fit
      obtain ⟨present, nonnull⟩ := List.forall_mem_cons.mp nonnull
      obtain ⟨place, maps, lies⟩ := holds.lies
      rw [List.cons_append, List.map_cons, List.cons_append, importNames,
        fits.unpackAll_packAll]
      have nameRva : descriptor.values.getD 3 0 = descriptor.nameRva := rfl
      dsimp only
      rw [if_neg (fun null => present null.2.1), nameRva, maps.rvaToOff_eq]
      dsimp only
      rw [holds.toPlainName.cstr_eq lies (by rintro bound ⟨⟩), if_neg holds.nonempty,
        inductionHypothesis fit nonnull]

/-- The DLLs of the import table are read in its order. -/
theorem peImports_eq {data : Bytes} {file : PeFile data} (imports : ImportTable file)
    {names : List (List Char)}
    (named : List.Forall₂ (fun descriptor name => file.NameAt descriptor.nameRva name)
      imports.descriptors names) :
    peImports data = names := by
  have fit : ∀ descriptor ∈ imports.descriptors ++ [Descriptor.null],
      Fits descriptorWidths descriptor.values := by
    intro descriptor member
    rcases List.mem_append.mp member with inside | last
    · exact imports.descriptors_fit descriptor inside
    · rw [List.mem_singleton.mp last]
      decide
  have few := imports.few
  have sized := length_packed .little (show 20 = descriptorWidths.sum from rfl) fit
  have enough : ((imports.descriptors ++ [Descriptor.null]).map fun descriptor =>
      ByteOrder.little.packAll descriptorWidths descriptor.values).length ≤ 1024 := by
    rw [List.length_map, List.length_append, List.length_singleton]
    omega
  obtain ⟨rest, table⟩ := entries_append sized (lies_flatten sized imports.lies) enough
  rw [peImports, file.peHeaders_eq]
  simp only []
  rw [if_neg file.imports, imports.mapped.rvaToOff_eq]
  exact (congrArg (importNames data _) table).trans
    (importNames_eq imports.descriptors_fit imports.nonnull named)

/-! ## An image with one import -/

/-- The header of a file with one section. -/
def sampleCoff : CoffHeader := ⟨0x8664, 1, 0, 0, 0, 128, 0⟩

/-- The section of the sample. -/
def samplePeSection : PeSectionHeader := ⟨⟨0x1000, 64, 256, 64⟩, 0⟩

/-- The descriptor of the sample. -/
def sampleDescriptor : Descriptor := ⟨1, 0, 0, 0x1028, 1⟩

/-- `bcrypt.dll`. -/
def samplePeData : Bytes :=
  dosMagic ++ List.replicate 58 0 ++ ByteOrder.little.packAll [4] [64] ++ peMagic ++
    ByteOrder.little.packAll coffWidths sampleCoff.values ++
    ByteOrder.little.packAll [2] [0x20B] ++ List.replicate 118 0 ++
    ByteOrder.little.packAll [4, 4] [0x1000, 40] ++
    ByteOrder.little.packAll peSectionWidths samplePeSection.values ++
    List.replicate 16 0 ++
    ByteOrder.little.packAll descriptorWidths sampleDescriptor.values ++
    ByteOrder.little.packAll descriptorWidths Descriptor.null.values ++
    nameBytes "bcrypt.dll".toList ++ [0]

/-- A file with one library. -/
def samplePeFile : PeFile samplePeData where
  lfanew := 64
  isPlus := true
  coff := sampleCoff
  importRva := 0x1000
  importSize := 40
  sections := [samplePeSection]
  long := by decide +kernel
  begins := by decide +kernel
  points := by decide +kernel
  lfanew_small := by decide
  signed := by decide +kernel
  coff_lies := by decide +kernel
  coff_fits := by decide
  magic := by decide +kernel
  directory := by decide +kernel
  directory_fits := by decide
  imports := by decide
  counted := by decide
  few := by decide
  sections_fit := by decide
  listed := by
    intro index candidate here
    obtain ⟨bound, rfl⟩ := List.getElem?_eq_some_iff.mp here
    clear here
    revert index
    decide +kernel
  apart := List.pairwise_singleton _ _

/-- The import table lies in the file. -/
def sampleImports : ImportTable samplePeFile where
  place := 256
  descriptors := [sampleDescriptor]
  mapped := ⟨samplePeSection, List.mem_singleton_self _, by decide, by decide⟩
  descriptors_fit := by decide
  lies := by decide +kernel
  nonnull := by decide
  few := by decide

theorem bcrypt_held : samplePeFile.NameAt 0x1028 "bcrypt.dll".toList where
  nonempty := by decide
  ascii := by decide
  nonzero := by decide
  lies := ⟨296, ⟨samplePeSection, List.mem_singleton_self _, by decide, by decide⟩,
    by decide +kernel⟩

theorem peImports_eq_bcrypt : peImports samplePeData = ["bcrypt.dll".toList] :=
  peImports_eq sampleImports (.cons bcrypt_held .nil)

end FsBinaryCrypto
end Probes
end PqcScan
