import PqcScan.Probes.Records
import Mathlib.Data.Finset.Insert

/-!
# Imports of an ELF file

`_elf_needed` and `_elf_dynsym_imports` of `fs_binary_crypto.py`: the shared libraries of
the dynamic section, and the names of the undefined dynamic symbols.
-/

namespace PqcScan
namespace Probes
namespace FsBinaryCrypto

open Library Python

/-! ## The readers -/

/-- `\x7fELF`. -/
def elfMagic : Bytes := [0x7F, 0x45, 0x4C, 0x46]

/-- `_SHT_DYNAMIC`. -/
def shtDynamic : Nat := 6

/-- `_DT_NEEDED`. -/
def dtNeeded : Nat := 1

/-- `_SHT_DYNSYM`. -/
def shtDynsym : Nat := 11

/-- `_SHN_UNDEF`. -/
def shnUndef : Nat := 0

/-- `_MAX_DYNSYM`. -/
def maxDynsym : Nat := 100000

/-- The byte order and the class of a file. -/
structure Ident where
  order : ByteOrder
  is64 : Bool
  deriving DecidableEq

/-- `(type, offset, size, link)` of a section. -/
structure Section where
  type : Nat
  offset : Nat
  size : Nat
  link : Nat
  deriving DecidableEq

namespace Ident

variable (ident : Ident)

/-- `HHIQQQIHHHHHH` or `HHIIIIIHHHHHH`. -/
def headerWidths : List Nat :=
  if ident.is64 then [2, 2, 4, 8, 8, 8, 4, 2, 2, 2, 2, 2, 2]
  else [2, 2, 4, 4, 4, 4, 4, 2, 2, 2, 2, 2, 2]

/-- The header takes `data[16:64]` or `data[16:52]`. -/
def headerSize : Nat := if ident.is64 then 48 else 36

/-- `IIQQQQIIQQ` or `IIIIIIIIII`. -/
def sectionWidths : List Nat :=
  if ident.is64 then [4, 4, 8, 8, 8, 8, 4, 4, 8, 8] else [4, 4, 4, 4, 4, 4, 4, 4, 4, 4]

/-- `sh_entry`. -/
def sectionSize : Nat := if ident.is64 then 64 else 40

/-- `qQ` or `iI`.  The tags that are looked for are the same signed and unsigned. -/
def dynamicWidths : List Nat := if ident.is64 then [8, 8] else [4, 4]

/-- `ent` of `_elf_needed`. -/
def dynamicSize : Nat := if ident.is64 then 16 else 8

/-- `IBBHQQ` or `IIIBBH`. -/
def symbolWidths : List Nat :=
  if ident.is64 then [4, 1, 1, 2, 8, 8] else [4, 4, 4, 1, 1, 2]

/-- `ent` of `_elf_dynsym_imports`. -/
def symbolSize : Nat := if ident.is64 then 24 else 16

/-- What is kept of a section header. -/
def readSection (chunk : Bytes) : Option Section :=
  (ident.order.unpackAll ident.sectionWidths chunk).map fun fields =>
    ⟨fields.getD 1 0, fields.getD 4 0, fields.getD 5 0, fields.getD 6 0⟩

/-- `(d_tag, d_val)`. -/
def readDynamic (chunk : Bytes) : Option (Nat × Nat) :=
  (ident.order.unpackAll ident.dynamicWidths chunk).map fun fields =>
    (fields.getD 0 0, fields.getD 1 0)

/-- `(st_name, st_shndx)`. -/
def readSymbol (chunk : Bytes) : Option (Nat × Nat) :=
  (ident.order.unpackAll ident.symbolWidths chunk).map fun fields =>
    (fields.getD 0 0, if ident.is64 then fields.getD 3 0 else fields.getD 5 0)

end Ident

/-- The checks of the first bytes. -/
def elfIdent (data : Bytes) : Option Ident :=
  if data.length < 64 ∨ data.take 4 ≠ elfMagic then none
  else
    let eiClass := data.getD 4 0
    let eiData := data.getD 5 0
    if eiClass ≠ 1 ∧ eiClass ≠ 2 then none
    else some ⟨if eiData = 2 then .big else .little, eiClass = 2⟩

/-- The header and the walk over the section headers. -/
def elfSections (data : Bytes) : Option (Ident × List Section) :=
  match elfIdent data with
  | none => none
  | some ident =>
      match ident.order.unpackAll ident.headerWidths
          ((data.drop 16).take ident.headerSize) with
      | none => none
      | some header =>
          let eShoff := header.getD 5 0
          let eShentsize := header.getD 10 0
          let eShnum := header.getD 11 0
          some (ident, (entries data eShoff eShentsize ident.sectionSize
            (min eShnum 4096)).filterMap ident.readSection)

/-- The first section of a type and the section of its strings. -/
def linkedTable (sections : List Section) (type : Nat) : Option (Section × Section) :=
  match sections.find? fun candidate => candidate.type == type with
  | none => none
  | some table => sections[table.link]?.map fun strings => (table, strings)

/-- The name at an offset of a string table. -/
def nameAt (data : Bytes) (strings : Section) (offset : Nat) : List Char :=
  cstr data (strings.offset + offset) (some (strings.offset + strings.size))

/-- The loop over the dynamic array. -/
def neededNames (data : Bytes) (ident : Ident) (strings : Section) :
    List Bytes → List (List Char)
  | [] => []
  | chunk :: chunks =>
      match ident.readDynamic chunk with
      | none => []
      | some (tag, value) =>
          if tag = 0 then []
          else
            let later := neededNames data ident strings chunks
            if tag = dtNeeded then
              let name := nameAt data strings value
              if name = [] then later else name :: later
            else later

/-- `_elf_needed`. -/
def elfNeeded (data : Bytes) : List (List Char) :=
  match elfSections data with
  | none => []
  | some (ident, sections) =>
      match linkedTable sections shtDynamic with
      | none => []
      | some (dynamic, strings) =>
          neededNames data ident strings
            (entries data dynamic.offset ident.dynamicSize ident.dynamicSize
              (min (dynamic.size / ident.dynamicSize) 8192))

/-- The loop over the symbols. -/
def importedNames (data : Bytes) (ident : Ident) (strings : Section) :
    List Bytes → Finset (List Char)
  | [] => ∅
  | chunk :: chunks =>
      match ident.readSymbol chunk with
      | none => ∅
      | some (stName, stShndx) =>
          let later := importedNames data ident strings chunks
          if stShndx ≠ shnUndef ∨ stName = 0 then later
          else
            let name := nameAt data strings stName
            if name = [] then later else insert name later

/-- `_elf_dynsym_imports`. -/
def elfDynsymImports (data : Bytes) : Finset (List Char) :=
  match elfSections data with
  | none => ∅
  | some (ident, sections) =>
      match linkedTable sections shtDynsym with
      | none => ∅
      | some (symbols, strings) =>
          importedNames data ident strings
            (entries data symbols.offset ident.symbolSize ident.symbolSize
              (min (symbols.size / ident.symbolSize) maxDynsym))

/-! ## Well-formed files -/

/-- The fields of the header behind the identification. -/
structure ElfHeader where
  type : Nat
  machine : Nat
  version : Nat
  entry : Nat
  phoff : Nat
  shoff : Nat
  flags : Nat
  ehsize : Nat
  phentsize : Nat
  phnum : Nat
  shentsize : Nat
  shnum : Nat
  shstrndx : Nat

/-- The numbers of the header in their order. -/
def ElfHeader.values (header : ElfHeader) : List Nat :=
  [header.type, header.machine, header.version, header.entry, header.phoff, header.shoff,
    header.flags, header.ehsize, header.phentsize, header.phnum, header.shentsize,
    header.shnum, header.shstrndx]

/-- The fields of a section header. -/
structure SectionHeader extends Section where
  name : Nat
  flags : Nat
  addr : Nat
  info : Nat
  addralign : Nat
  entsize : Nat

/-- The numbers of a section header in their order. -/
def SectionHeader.values (header : SectionHeader) : List Nat :=
  [header.name, header.type, header.flags, header.addr, header.offset, header.size,
    header.link, header.info, header.addralign, header.entsize]

/-- The fields of a symbol. -/
structure Symbol where
  name : Nat
  info : Nat
  other : Nat
  shndx : Nat
  value : Nat
  size : Nat

/-- The numbers of a symbol, in the order of the class of the file. -/
def Symbol.values (symbol : Symbol) (ident : Ident) : List Nat :=
  if ident.is64 then
    [symbol.name, symbol.info, symbol.other, symbol.shndx, symbol.value, symbol.size]
  else [symbol.name, symbol.value, symbol.size, symbol.info, symbol.other, symbol.shndx]

/-- The first sixteen bytes of a file; the reader does not look
at the last ten of them. -/
def Ident.bytes (ident : Ident) (rest : Bytes) : Bytes :=
  elfMagic ++ ((if ident.is64 then 2 else 1) ::
    (match ident.order with | .little => 1 | .big => 2) :: rest)

/-- The data is an ELF file with these section headers, wherever they lie. -/
structure ElfFile (data : Bytes) where
  ident : Ident
  identRest : Bytes
  header : ElfHeader
  sections : List SectionHeader
  identRest_length : identRest.length = 10
  header_fits : Fits ident.headerWidths header.values
  begins : Lies data 0
    (ident.bytes identRest ++ ident.order.packAll ident.headerWidths header.values)
  long : 64 ≤ data.length
  sections_fit : ∀ candidate ∈ sections, Fits ident.sectionWidths candidate.values
  counted : header.shnum = sections.length
  few : sections.length ≤ 4096
  listed : ∀ index candidate, sections[index]? = some candidate →
    Lies data (header.shoff + index * header.shentsize)
      (ident.order.packAll ident.sectionWidths candidate.values)

/-- The name lies at the offset of the string table, with its NUL. -/
structure HoldsName (data : Bytes) (strings : Section) (offset : Nat)
    (name : List Char) : Prop
    extends PlainName name where
  lies : Lies data (strings.offset + offset) (nameBytes name ++ [0])
  inside : offset + name.length < strings.size

namespace ElfFile

variable {data : Bytes} (file : ElfFile data)

/-- The first section of a type and its string table. -/
structure Linked (type : Nat) (table strings : SectionHeader) : Prop where
  first : (file.sections.find? fun candidate => candidate.type == type) = some table
  linked : file.sections[table.link]? = some strings

end ElfFile

/-! ## Reading a well-formed file -/

theorem HoldsName.read {data : Bytes} {strings : Section} {offset : Nat}
    {name : List Char}
    (holds : HoldsName data strings offset name) : nameAt data strings offset = name := by
  apply holds.toPlainName.cstr_eq holds.lies
  rintro bound ⟨⟩
  have inside := holds.inside
  omega

namespace Ident

variable (ident : Ident)

theorem headerSize_eq : ident.headerSize = ident.headerWidths.sum := by
  rw [headerSize, headerWidths]
  split <;> rfl

theorem sectionSize_eq : ident.sectionSize = ident.sectionWidths.sum := by
  rw [sectionSize, sectionWidths]
  split <;> rfl

theorem dynamicSize_eq : ident.dynamicSize = ident.dynamicWidths.sum := by
  rw [dynamicSize, dynamicWidths]
  split <;> rfl

theorem symbolSize_eq : ident.symbolSize = ident.symbolWidths.sum := by
  rw [symbolSize, symbolWidths]
  split <;> rfl

theorem length_bytes {rest : Bytes} (sized : rest.length = 10) :
    (ident.bytes rest).length = 16 := by
  simp [bytes, elfMagic, sized]

variable {ident}

theorem readSection_packAll {header : SectionHeader}
    (fits : Fits ident.sectionWidths header.values) :
    ident.readSection (ident.order.packAll ident.sectionWidths header.values) =
      some header.toSection := by
  rw [readSection, fits.unpackAll_packAll]
  rfl

theorem readSymbol_packAll {symbol : Symbol}
    (fits : Fits ident.symbolWidths (symbol.values ident)) :
    ident.readSymbol (ident.order.packAll ident.symbolWidths (symbol.values ident)) =
      some (symbol.name, symbol.shndx) := by
  rw [readSymbol, fits.unpackAll_packAll, Symbol.values]
  cases ident.is64 <;> rfl

theorem readDynamic_packAll {entry : Nat × Nat}
    (fits : Fits ident.dynamicWidths [entry.1, entry.2]) :
    ident.readDynamic (ident.order.packAll ident.dynamicWidths [entry.1, entry.2]) =
      some entry := by
  rw [readDynamic, fits.unpackAll_packAll]
  rfl

end Ident

theorem elfIdent_append {ident : Ident} {rest tail : Bytes}
    (long : 64 ≤ (ident.bytes rest ++ tail).length) :
    elfIdent (ident.bytes rest ++ tail) = some ident := by
  rw [elfIdent, if_neg
    (by rw [not_or]; exact ⟨Nat.not_lt.mpr long, fun other => other rfl⟩)]
  rcases ident with ⟨⟨⟩, ⟨⟩⟩ <;> rfl

namespace ElfFile

variable {data : Bytes} (file : ElfFile data)

/-- The section headers are read as they lie. -/
theorem elfSections_eq :
    elfSections data = some (file.ident, file.sections.map SectionHeader.toSection) := by
  have front := file.begins.left.window
  rw [file.ident.length_bytes file.identRest_length, List.drop_zero] at front
  have ident : elfIdent data = some file.ident := by
    have split : file.ident.bytes file.identRest ++ data.drop 16 = data := by
      rw [← front, List.take_append_drop]
    exact (congrArg elfIdent split.symm).trans
      (elfIdent_append (by rw [split]; exact file.long))
  have place := file.begins.right
  rw [file.ident.length_bytes file.identRest_length, Nat.zero_add] at place
  have header := file.header_fits.unpackAll_window file.ident.headerSize_eq place
  have table := entries_spread file.ident.sectionSize_eq file.sections_fit
    file.listed 4096
  rw [List.take_of_length_le file.few, ← file.counted] at table
  have kept : (file.sections.map fun candidate => file.ident.order.packAll
      file.ident.sectionWidths candidate.values).filterMap file.ident.readSection =
      file.sections.map SectionHeader.toSection := by
    rw [List.filterMap_map, ← List.filterMap_eq_map]
    refine List.filterMap_congr fun candidate inside => ?_
    exact Ident.readSection_packAll (file.sections_fit candidate inside)
  rw [elfSections, ident]
  dsimp only
  rw [header]
  refine congrArg some (congrArg (Prod.mk file.ident) ?_)
  exact (congrArg (List.filterMap file.ident.readSection) table).trans kept

variable {file} {type : Nat} {table strings : SectionHeader}

theorem Linked.linkedTable_eq (linked : file.Linked type table strings) :
    linkedTable (file.sections.map SectionHeader.toSection) type =
      some (table.toSection, strings.toSection) := by
  have first : (file.sections.map SectionHeader.toSection).find?
      (fun candidate => candidate.type == type) = some table.toSection := by
    rw [List.find?_map, Function.comp_def, linked.first, Option.map_some]
  rw [linkedTable, first]
  dsimp only
  rw [List.getElem?_map, linked.linked]
  rfl

end ElfFile

/-! ### The dynamic section -/

/-- The dynamic section of a file with its entries; what is after a
null entry does not count. -/
structure Dynamic {data : Bytes} (file : ElfFile data) where
  table : SectionHeader
  strings : SectionHeader
  entries : List (Nat × Nat)
  linked : file.Linked shtDynamic table strings
  entries_fit : ∀ entry ∈ entries, Fits file.ident.dynamicWidths [entry.1, entry.2]
  lies : Lies data table.offset (entries.map fun entry =>
    file.ident.order.packAll file.ident.dynamicWidths [entry.1, entry.2]).flatten
  counted : table.size / file.ident.dynamicSize = entries.length
  few : entries.length ≤ 8192

/-- The entries before a null entry that name a library. -/
def Dynamic.needed {data : Bytes} {file : ElfFile data} (dynamic : Dynamic file) :
    List (Nat × Nat) :=
  (dynamic.entries.takeWhile fun entry => entry.1 != 0).filter fun entry =>
    entry.1 == dtNeeded

section Dynamic

variable {data : Bytes} {ident : Ident} {strings : Section}

theorem neededNames_eq {dynamic : List (Nat × Nat)} {names : List (List Char)}
    (fit : ∀ entry ∈ dynamic, Fits ident.dynamicWidths [entry.1, entry.2])
    (named : List.Forall₂ (fun entry name => HoldsName data strings entry.2 name)
      ((dynamic.takeWhile fun entry => entry.1 != 0).filter fun entry =>
        entry.1 == dtNeeded)
      names) :
    neededNames data ident strings (dynamic.map fun entry =>
      ident.order.packAll ident.dynamicWidths [entry.1, entry.2]) = names := by
  induction dynamic generalizing names with
  | nil => cases named; rfl
  | cons entry dynamic inductionHypothesis =>
      obtain ⟨fits, fit⟩ := List.forall_mem_cons.mp fit
      rw [List.map_cons, neededNames, Ident.readDynamic_packAll fits]
      dsimp only
      by_cases null : entry.1 = 0
      · rw [List.takeWhile_cons_of_neg (by simp [null])] at named
        cases named
        rw [if_pos null]
      · rw [List.takeWhile_cons_of_pos (by simp [null])] at named
        rw [if_neg null]
        by_cases library : entry.1 = dtNeeded
        · rw [List.filter_cons_of_pos (by simp [library])] at named
          obtain ⟨name, names, holds, later, rfl⟩ := List.forall₂_cons_left_iff.mp named
          rw [if_pos library, holds.read, if_neg holds.nonempty,
            inductionHypothesis fit later]
        · rw [List.filter_cons_of_neg (by simp [library])] at named
          rw [if_neg library, inductionHypothesis fit named]

end Dynamic

/-- The libraries that the dynamic section names are read in its order. -/
theorem elfNeeded_eq {data : Bytes} {file : ElfFile data} (dynamic : Dynamic file)
    {names : List (List Char)}
    (named : List.Forall₂ (fun entry name =>
      HoldsName data dynamic.strings.toSection entry.2 name) dynamic.needed names) :
    elfNeeded data = names := by
  have table := entries_packed file.ident.dynamicSize_eq dynamic.entries_fit
    dynamic.lies 8192
  rw [List.take_of_length_le dynamic.few, ← dynamic.counted] at table
  rw [elfNeeded, file.elfSections_eq]
  dsimp only
  rw [dynamic.linked.linkedTable_eq]
  exact (congrArg (neededNames data file.ident dynamic.strings.toSection) table).trans
    (neededNames_eq dynamic.entries_fit named)

/-! ### The dynamic symbols -/

/-- An undefined symbol with a name. -/
def Symbol.imported (symbol : Symbol) : Bool :=
  symbol.shndx == shnUndef && symbol.name != 0

/-- The dynamic symbols of a file. -/
structure Dynsym {data : Bytes} (file : ElfFile data) where
  table : SectionHeader
  strings : SectionHeader
  symbols : List Symbol
  linked : file.Linked shtDynsym table strings
  symbols_fit : ∀ symbol ∈ symbols,
    Fits file.ident.symbolWidths (symbol.values file.ident)
  lies : Lies data table.offset (symbols.map fun symbol =>
    file.ident.order.packAll file.ident.symbolWidths (symbol.values file.ident)).flatten
  counted : table.size / file.ident.symbolSize = symbols.length

theorem importedNames_eq {data : Bytes} {ident : Ident} {strings : Section}
    {symbols : List Symbol} {names : List (List Char)}
    (fit : ∀ symbol ∈ symbols, Fits ident.symbolWidths (symbol.values ident))
    (named : List.Forall₂ (fun symbol name => HoldsName data strings symbol.name name)
      (symbols.filter Symbol.imported) names) :
    importedNames data ident strings (symbols.map fun symbol =>
      ident.order.packAll ident.symbolWidths (symbol.values ident)) = names.toFinset := by
  induction symbols generalizing names with
  | nil => cases named; rfl
  | cons symbol symbols inductionHypothesis =>
      obtain ⟨fits, fit⟩ := List.forall_mem_cons.mp fit
      rw [List.map_cons, importedNames, Ident.readSymbol_packAll fits]
      dsimp only
      by_cases imported : symbol.imported = true
      · rw [List.filter_cons_of_pos imported] at named
        obtain ⟨name, names, holds, later, rfl⟩ := List.forall₂_cons_left_iff.mp named
        have undefined : ¬ (symbol.shndx ≠ shnUndef ∨ symbol.name = 0) := by
          simpa [Symbol.imported] using imported
        rw [if_neg undefined, holds.read, if_neg holds.nonempty,
          inductionHypothesis fit later, List.toFinset_cons]
      · rw [List.filter_cons_of_neg imported] at named
        have defined : symbol.shndx ≠ shnUndef ∨ symbol.name = 0 := by
          by_contra other
          exact imported (by simpa [Symbol.imported] using other)
        rw [if_pos defined, inductionHypothesis fit named]

/-- The names of the undefined symbols are read, up to the cap on the table. -/
theorem elfDynsymImports_eq {data : Bytes} {file : ElfFile data} (dynsym : Dynsym file)
    {names : List (List Char)}
    (named : List.Forall₂ (fun symbol name =>
      HoldsName data dynsym.strings.toSection symbol.name name)
      ((dynsym.symbols.take maxDynsym).filter Symbol.imported) names) :
    elfDynsymImports data = names.toFinset := by
  have table := entries_packed file.ident.symbolSize_eq dynsym.symbols_fit
    dynsym.lies maxDynsym
  rw [← dynsym.counted] at table
  rw [elfDynsymImports, file.elfSections_eq]
  dsimp only
  rw [dynsym.linked.linkedTable_eq]
  exact (congrArg (importedNames data file.ident dynsym.strings.toSection) table).trans
    (importedNames_eq (fun symbol inside =>
      dynsym.symbols_fit symbol (List.mem_of_mem_take inside))
      named)

/-! ## A file with one library and one symbol -/

/-- 64-bit and little-endian. -/
def sampleIdent : Ident := ⟨.little, true⟩

/-- The header of a file with three sections. -/
def sampleHeader : ElfHeader := ⟨3, 62, 1, 0, 0, 160, 0, 64, 56, 0, 64, 3, 0⟩

/-- The names of the sample. -/
def sampleStrings : SectionHeader := ⟨⟨3, 64, 13, 0⟩, 0, 0, 0, 0, 0, 0⟩

/-- The dynamic section of the sample. -/
def sampleDynamic : SectionHeader := ⟨⟨6, 80, 32, 0⟩, 0, 0, 0, 0, 0, 0⟩

/-- The dynamic symbols of the sample. -/
def sampleDynsym : SectionHeader := ⟨⟨11, 112, 48, 0⟩, 0, 0, 0, 0, 0, 0⟩

/-- An undefined symbol with a name. -/
def sampleSymbol : Symbol := ⟨8, 0, 0, 0, 0, 0⟩

/-- `libssl` and `puts`. -/
def sampleData : Bytes :=
  sampleIdent.bytes (List.replicate 10 0) ++
    sampleIdent.order.packAll sampleIdent.headerWidths sampleHeader.values ++
    ([0] ++ nameBytes "libssl".toList ++ [0] ++ nameBytes "puts".toList ++
      [0, 0, 0, 0]) ++
    sampleIdent.order.packAll sampleIdent.dynamicWidths [1, 1] ++ List.replicate 16 0 ++
    List.replicate 24 0 ++
    sampleIdent.order.packAll sampleIdent.symbolWidths
      (sampleSymbol.values sampleIdent) ++
    ([sampleStrings, sampleDynamic, sampleDynsym].map fun header =>
      sampleIdent.order.packAll sampleIdent.sectionWidths header.values).flatten

/-- A file with one library and one undefined symbol. -/
def sampleFile : ElfFile sampleData where
  ident := sampleIdent
  identRest := List.replicate 10 0
  header := sampleHeader
  sections := [sampleStrings, sampleDynamic, sampleDynsym]
  identRest_length := by decide
  header_fits := by decide
  begins := by decide +kernel
  long := by decide +kernel
  sections_fit := by decide
  counted := by decide
  few := by decide
  listed := by
    intro index candidate here
    obtain ⟨bound, rfl⟩ := List.getElem?_eq_some_iff.mp here
    clear here
    revert index
    decide +kernel

/-- The dynamic section lies in the file. -/
def sampleDynamicOf : Dynamic sampleFile where
  table := sampleDynamic
  strings := sampleStrings
  entries := [(1, 1), (0, 0)]
  linked := ⟨rfl, rfl⟩
  entries_fit := by decide
  lies := by decide +kernel
  counted := by decide
  few := by decide

/-- The symbol table lies in the file. -/
def sampleDynsymOf : Dynsym sampleFile where
  table := sampleDynsym
  strings := sampleStrings
  symbols := [⟨0, 0, 0, 0, 0, 0⟩, sampleSymbol]
  linked := ⟨rfl, rfl⟩
  symbols_fit := by decide
  lies := by decide +kernel
  counted := by decide

theorem libssl_held : HoldsName sampleData sampleStrings.toSection 1 "libssl".toList :=
  ⟨⟨by decide, by decide, by decide⟩, by decide +kernel, by decide⟩

theorem puts_held : HoldsName sampleData sampleStrings.toSection 8 "puts".toList :=
  ⟨⟨by decide, by decide, by decide⟩, by decide +kernel, by decide⟩

theorem elfNeeded_eq_libssl : elfNeeded sampleData = ["libssl".toList] :=
  elfNeeded_eq sampleDynamicOf (.cons libssl_held .nil)

theorem elfDynsymImports_eq_puts :
    elfDynsymImports sampleData = ["puts".toList].toFinset :=
  elfDynsymImports_eq sampleDynsymOf (.cons puts_held .nil)

end FsBinaryCrypto
end Probes
end PqcScan
