import PqcScan.Probes.Records

/-!
# Libraries of a Mach-O image

`_macho_thin` and `_macho_dylibs` of `fs_binary_crypto.py`: the names of the load commands
that name a dynamic library, in an image of one architecture or in the first image of a
fat file.
-/

namespace PqcScan
namespace Probes
namespace FsBinaryCrypto

open Library Python

/-! ## The readers -/

/-- `_LC_DYLIB_CMDS`.  A re-export has the command `0x8000001F`,
which is not among them. -/
def lcDylibCmds : List Nat := [0x0C, 0x1F, 0x80000018, 0x80000023]

/-- The magic of an image of one architecture: byte order and word size. -/
def machoMagic (order : ByteOrder) (is64 : Bool) : Bytes :=
  match order, is64 with
  | .little, true => [0xCF, 0xFA, 0xED, 0xFE]
  | .little, false => [0xCE, 0xFA, 0xED, 0xFE]
  | .big, true => [0xFE, 0xED, 0xFA, 0xCF]
  | .big, false => [0xFE, 0xED, 0xFA, 0xCE]

/-- `_MACHO_FAT`. -/
def machoFat : Bytes := [0xCA, 0xFE, 0xBA, 0xBE]

/-- `_MACHO_THIN_MAGICS`, with what is made of them. -/
def machoKinds : List (ByteOrder × Bool) :=
  [(.little, true), (.little, false), (.big, true), (.big, false)]

/-- `IIIIII`. -/
def machoWidths : List Nat := [4, 4, 4, 4, 4, 4]

/-- The name of a command of the table at a place. -/
def dylibName (data : Bytes) (order : ByteOrder) (off cmd cmdsize : Nat) : List Char :=
  if cmd ∈ lcDylibCmds ∧ off + 12 ≤ data.length then
    let nameOff := match order.unpackAll [4] ((data.drop (off + 8)).take 4) with
      | none => 0
      | some fields => fields.getD 0 0
    if 0 < nameOff ∧ nameOff < cmdsize then
      cstr data (off + nameOff) (some (off + cmdsize))
    else []
  else []

/-- The loop over the load commands. -/
def machoNames (data : Bytes) (order : ByteOrder) : Nat → Nat → List (List Char)
  | 0, _ => []
  | rounds + 1, off =>
      if data.length < off + 8 then []
      else
        match order.unpackAll [4, 4] ((data.drop off).take 8) with
        | none => []
        | some fields =>
            let cmd := fields.getD 0 0
            let cmdsize := fields.getD 1 0
            if cmdsize < 8 then []
            else
              let name := dylibName data order off cmd cmdsize
              let later := machoNames data order rounds (off + cmdsize)
              if name = [] then later else name :: later

/-- `_macho_thin`. -/
def machoThin (data : Bytes) : List (List Char) :=
  if data.length < 28 then []
  else
    match machoKinds.find? fun kind => machoMagic kind.1 kind.2 == data.take 4 with
    | none => []
    | some (order, is64) =>
        let hdrSize := if is64 then 32 else 28
        match order.unpackAll machoWidths ((data.drop 4).take 24) with
        | none => []
        | some fields => machoNames data order (min (fields.getD 3 0) 10000) hdrSize

/-- `_macho_dylibs`. -/
def machoDylibs (data : Bytes) : List (List Char) :=
  if data.take 4 = machoFat then
    match ByteOrder.big.unpackAll [4] ((data.drop 4).take 4) with
    | none => []
    | some count =>
        if count.getD 0 0 = 0 then []
        else
          match ByteOrder.big.unpackAll [4, 4, 4, 4, 4] ((data.drop 8).take 20) with
          | none => []
          | some arch =>
              let offset := arch.getD 2 0
              let size := arch.getD 3 0
              if offset = 0 ∨ data.length ≤ offset then []
              else machoThin ((data.drop offset).take size)
  else machoThin data

/-! ## Well-formed images -/

/-- A load command: what follows its eight bytes of command and size. -/
structure LoadCommand where
  cmd : Nat
  body : Bytes

namespace LoadCommand

variable (command : LoadCommand)

/-- `cmdsize`. -/
def size : Nat := 8 + command.body.length

/-- The command as it lies in the file. -/
def bytes (order : ByteOrder) : Bytes :=
  order.packAll [4, 4] [command.cmd, command.size] ++ command.body

/-- The command names a dynamic library, if it is of the table. -/
def isDylib : Bool := command.cmd ∈ lcDylibCmds

/-- The offset of the name, counted from the command, and the name with its NUL. -/
structure NameIn (order : ByteOrder) (name : List Char) :
    Prop extends PlainName name where
  offset : ∃ nameOff, nameOff < 256 ^ 4 ∧ 0 < nameOff ∧
    Lies command.body 0 (order.pack 4 nameOff) ∧
    Lies (command.bytes order) nameOff (nameBytes name ++ [0])

end LoadCommand

/-- An image of one architecture. -/
structure MachoFile where
  order : ByteOrder
  is64 : Bool
  cpuType : Nat
  cpuSubtype : Nat
  fileType : Nat
  sizeOfCommands : Nat
  flags : Nat
  reserved : Bytes
  commands : List LoadCommand
  reserved_length : reserved.length = if is64 then 4 else 0
  header_fits : Fits machoWidths
    [cpuType, cpuSubtype, fileType, commands.length, sizeOfCommands, flags]
  commands_fit : ∀ command ∈ commands, Fits [4, 4] [command.cmd, command.size]
  few : commands.length ≤ 10000

namespace MachoFile

variable (file : MachoFile)

/-- The header of the image. -/
def header : Bytes :=
  machoMagic file.order file.is64 ++
    file.order.packAll machoWidths [file.cpuType, file.cpuSubtype, file.fileType,
      file.commands.length, file.sizeOfCommands, file.flags] ++ file.reserved

/-- The image. -/
def bytes : Bytes := file.header ++ file.commands.flatMap fun command =>
      command.bytes file.order

/-- The libraries that the commands of the table name. -/
def Names (names : List (List Char)) : Prop :=
  List.Forall₂ (fun command name => command.NameIn file.order name)
    (file.commands.filter LoadCommand.isDylib) names

end MachoFile

/-! ## Reading a well-formed image -/

namespace LoadCommand

variable {command : LoadCommand} {order : ByteOrder} {data : Bytes} {off : Nat}

theorem length_bytes (fits : Fits [4, 4] [command.cmd, command.size]) :
    (command.bytes order).length = command.size := by
  rw [bytes, List.length_append, fits.length_packAll, size]
  rfl

theorem NameIn.dylibName_eq {name : List Char} (named : command.NameIn order name)
    (fits : Fits [4, 4] [command.cmd, command.size]) (dylib : command.isDylib = true)
    (lies : Lies data off (command.bytes order)) :
    dylibName data order off command.cmd command.size = name := by
  obtain ⟨nameOff, small, positive, pointer, text⟩ := named.offset
  have body : Lies data (off + 8) command.body := by
    have later := lies.right
    rwa [fits.length_packAll] at later
  have pointed : Lies data (off + 8) (order.packAll [4] [nameOff]) := by
    have inside : command.body.take 4 = order.packAll [4] [nameOff] := by
      have window := pointer.window
      rwa [ByteOrder.length_pack,
        List.drop_zero, ← List.append_nil (order.pack 4 nameOff)] at window
    rw [← inside]
    exact (List.take_prefix 4 _).trans body
  have fitsName : Fits [4] [nameOff] := .cons small .nil
  have read : order.unpackAll [4] ((data.drop (off + 8)).take 4) = some [nameOff] :=
    fitsName.unpackAll_window rfl pointed
  have within := pointed.length_le (by
    intro empty
    have size := fitsName.length_packAll order
    rw [empty] at size
    cases size)
  rw [fitsName.length_packAll] at within
  have size := text.length_le (by simp)
  rw [length_bytes fits, List.length_append, List.length_singleton, nameBytes,
    List.length_map] at size
  rw [dylibName, if_pos ⟨of_decide_eq_true dylib, within⟩, read]
  simp only [List.getD_cons_zero]
  rw [if_pos ⟨positive, by omega⟩]
  have place : Lies data (off + nameOff) (nameBytes name ++ [0]) := by
    have part := lies.slice nameOff (nameBytes name ++ [0]).length
    rwa [text.window] at part
  apply named.toPlainName.cstr_eq place
  rintro bound ⟨⟩
  omega

end LoadCommand

theorem machoNames_eq {order : ByteOrder} {data : Bytes}
    {commands : List LoadCommand} {off : Nat}
    {names : List (List Char)}
    (fit : ∀ command ∈ commands, Fits [4, 4] [command.cmd, command.size])
    (lies : Lies data off (commands.flatMap fun command => command.bytes order))
    (named : List.Forall₂ (fun command name => command.NameIn order name)
      (commands.filter LoadCommand.isDylib) names) :
    machoNames data order commands.length off = names := by
  induction commands generalizing off names with
  | nil => cases named; rfl
  | cons command commands inductionHypothesis =>
      obtain ⟨fits, fit⟩ := List.forall_mem_cons.mp fit
      rw [List.flatMap_cons] at lies
      have here := lies.left
      have later := lies.right
      rw [LoadCommand.length_bytes fits] at later
      have read : order.unpackAll [4, 4] ((data.drop off).take 8) =
          some [command.cmd, command.size] := fits.unpackAll_window rfl here.left
      have size : off + 8 ≤ data.length := by
        have front := fits.length_packAll order
        have bound := here.left.length_le (by
          intro empty
          rw [empty] at front
          cases front)
        rwa [front] at bound
      have large : ¬ command.size < 8 := by
        rw [LoadCommand.size]
        omega
      rw [List.length_cons, machoNames, if_neg (by omega), read]
      simp only [List.getD_cons_zero, List.getD_cons_succ]
      rw [if_neg large]
      by_cases dylib : command.isDylib = true
      · rw [List.filter_cons_of_pos dylib] at named
        obtain ⟨name, names, holds, rest, rfl⟩ := List.forall₂_cons_left_iff.mp named
        rw [holds.dylibName_eq fits dylib here, if_neg holds.nonempty,
          inductionHypothesis fit later rest]
      · rw [List.filter_cons_of_neg dylib] at named
        have other : ¬ (command.cmd ∈ lcDylibCmds ∧ off + 12 ≤ data.length) :=
          fun both => dylib (decide_eq_true both.1)
        rw [dylibName, if_neg other, if_pos rfl, inductionHypothesis fit later named]

@[simp] theorem length_machoMagic (order : ByteOrder) (is64 : Bool) :
    (machoMagic order is64).length = 4 := by
  cases order <;> cases is64 <;> rfl

/-- An image begins with its magic. -/
theorem MachoFile.take_bytes (file : MachoFile) (rest : Bytes) :
    (file.bytes ++ rest).take 4 = machoMagic file.order file.is64 := by
  have whole : Lies (file.bytes ++ rest) 0 file.bytes := List.prefix_append _ _
  have window := whole.left.left.left.window
  rwa [length_machoMagic, List.drop_zero] at window

theorem machoThin_eq (file : MachoFile) {names : List (List Char)}
    (named : file.Names names)
    (rest : Bytes) : machoThin (file.bytes ++ rest) = names := by
  have fields := file.header_fits.length_packAll file.order
  have size : file.header.length = if file.is64 then 32 else 28 := by
    rw [MachoFile.header, List.length_append, List.length_append,
      length_machoMagic, fields, file.reserved_length]
    cases file.is64 <;> rfl
  have whole : Lies (file.bytes ++ rest) 0 file.bytes := List.prefix_append _ _
  have header : Lies (file.bytes ++ rest) 0 file.header := whole.left
  have commands := whole.right
  rw [Nat.zero_add, size] at commands
  have kind : (machoKinds.find? fun kind => machoMagic kind.1 kind.2 ==
      (file.bytes ++ rest).take 4) = some (file.order, file.is64) := by
    rw [file.take_bytes]
    cases file.order <;> cases file.is64 <;> rfl
  have place := header.left.right
  rw [Nat.zero_add, length_machoMagic] at place
  have read : file.order.unpackAll machoWidths (((file.bytes ++ rest).drop 4).take 24) =
      some _ :=
    file.header_fits.unpackAll_window rfl place
  have long : ¬ (file.bytes ++ rest).length < 28 := by
    rw [MachoFile.bytes, List.length_append, List.length_append, size]
    split <;> omega
  rw [machoThin, if_neg long, kind]
  dsimp only
  rw [read]
  simp only [List.getD_cons_zero, List.getD_cons_succ]
  rw [Nat.min_eq_left file.few]
  exact machoNames_eq file.commands_fit commands named

/-- A fat file: the table of its images, and the first of them at its offset. -/
structure FatFile (data : Bytes) where
  arches : Nat
  cpuType : Nat
  cpuSubtype : Nat
  offset : Nat
  size : Nat
  align : Nat
  first : MachoFile
  padding : Bytes
  some_ : arches ≠ 0
  count_fits : Fits [4] [arches]
  arch_fits : Fits [4, 4, 4, 4, 4] [cpuType, cpuSubtype, offset, size, align]
  begins : Lies data 0 (machoFat ++ ByteOrder.big.packAll [4] [arches] ++
    ByteOrder.big.packAll [4, 4, 4, 4, 4] [cpuType, cpuSubtype, offset, size, align])
  apart : offset ≠ 0
  lies : Lies data offset (first.bytes ++ padding)
  sized : (first.bytes ++ padding).length = size

/-- The libraries of an image are read in the order of its commands; of a fat file only
those of the first image are read. -/
theorem machoDylibs_eq :
    (∀ (file : MachoFile) (names : List (List Char)) (rest : Bytes), file.Names names →
      machoDylibs (file.bytes ++ rest) = names) ∧
    ∀ (data : Bytes) (fat : FatFile data) (names : List (List Char)),
      fat.first.Names names →
      machoDylibs data = names := by
  refine ⟨fun file names rest named => ?_, fun data fat names named => ?_⟩
  · have thin : (file.bytes ++ rest).take 4 ≠ machoFat := by
      rw [file.take_bytes]
      cases file.order <;> cases file.is64 <;> decide
    rw [machoDylibs, if_neg thin, machoThin_eq file named rest]
  · have magic : data.take 4 = machoFat := by
      have window := fat.begins.left.left.window
      rwa [List.drop_zero] at window
    have count : ByteOrder.big.unpackAll [4] ((data.drop 4).take 4) = some [fat.arches] :=
      fat.count_fits.unpackAll_window rfl fat.begins.left.right
    have place := fat.begins.right
    rw [List.length_append, fat.count_fits.length_packAll] at place
    have arch : ByteOrder.big.unpackAll [4, 4, 4, 4, 4] ((data.drop 8).take 20) =
        some [fat.cpuType, fat.cpuSubtype, fat.offset, fat.size, fat.align] :=
      fat.arch_fits.unpackAll_window rfl place
    have nonempty : fat.first.bytes ++ fat.padding ≠ [] := by
      intro empty
      have front := congrArg List.length (fat.first.take_bytes fat.padding)
      rw [empty, length_machoMagic] at front
      cases front
    have within := fat.lies.length_le nonempty
    have positive := List.length_pos_iff.mpr nonempty
    have slice := fat.lies.window
    rw [fat.sized] at slice
    rw [machoDylibs, if_pos magic, count]
    simp only [List.getD_cons_zero]
    rw [if_neg fat.some_, arch]
    simp only [List.getD_cons_zero, List.getD_cons_succ]
    rw [if_neg (by
      rintro (zero | beyond)
      · exact fat.apart zero
      · omega), slice, machoThin_eq fat.first named fat.padding]

/-! ## A fat file with one library in its first image -/

/-- A command that loads a library. -/
def sampleCommand : LoadCommand where
  cmd := 0x0C
  body := ByteOrder.little.pack 4 24 ++ List.replicate 12 0 ++
    nameBytes "libssl.dylib".toList ++
    [0, 0, 0, 0]

/-- An image with one library. -/
def sampleMacho : MachoFile where
  order := .little
  is64 := true
  cpuType := 0x01000007
  cpuSubtype := 3
  fileType := 2
  sizeOfCommands := 40
  flags := 0
  reserved := [0, 0, 0, 0]
  commands := [sampleCommand]
  reserved_length := by decide
  header_fits := by decide
  commands_fit := by decide
  few := by decide

/-- A fat file around the image. -/
def sampleFatData : Bytes :=
  machoFat ++ ByteOrder.big.packAll [4] [2] ++
    ByteOrder.big.packAll [4, 4, 4, 4, 4] [0x01000007, 3, 32, 72, 0] ++ [0, 0, 0, 0] ++
    sampleMacho.bytes

/-- The image lies in the fat file. -/
def sampleFat : FatFile sampleFatData where
  arches := 2
  cpuType := 0x01000007
  cpuSubtype := 3
  offset := 32
  size := 72
  align := 0
  first := sampleMacho
  padding := []
  some_ := by decide
  count_fits := by decide
  arch_fits := by decide
  begins := by decide +kernel
  apart := by decide
  lies := by decide +kernel
  sized := by decide +kernel

theorem libsslDylib_named : sampleMacho.Names ["libssl.dylib".toList] :=
  .cons ⟨⟨by decide, by decide, by decide⟩, 24, by decide, by decide, by decide +kernel,
    by decide +kernel⟩ .nil

theorem machoDylibs_eq_libsslDylib :
    machoDylibs (sampleMacho.bytes ++ []) = ["libssl.dylib".toList] ∧
      machoDylibs sampleFatData = ["libssl.dylib".toList] :=
  ⟨machoDylibs_eq.1 sampleMacho _ [] libsslDylib_named,
    machoDylibs_eq.2 sampleFatData sampleFat _ libsslDylib_named⟩

end FsBinaryCrypto
end Probes
end PqcScan
