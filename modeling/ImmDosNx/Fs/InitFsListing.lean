import ImmDosNx.Fs.CpioLayout
import ImmDosNx.Lib.Run

/-! Listing the InitFS root directory (`InitFileSystem::open_dir`, `read_dir`)
over an archive laid out by `cpio -H bin`. The directory cursor walks the
headers; each call reports its entry in 8.3 form and looks one header ahead to
say whether another entry follows. A name without a dot makes
`copy_filename_to_dos_style` index past its end, which panics. -/
namespace ImmDosNx.Fs.InitFs

open CpioHeader Files

/-- The entry `read_dir` fills in: the 8.3 name and extension, a file, the size of its data. -/
def dosInfo (name data : List UInt8) : DirEntryInfo := ⟨dosName name, dosExt name, .file, data.length.toUInt32⟩

/-- The replies of successive `read_dir` calls, one for each entry; the last says no more follow. -/
def listing : List (List UInt8 × List UInt8) → List (Except Unit Reply)
  | [] => []
  | (name, data) :: rest => .ok (.entry (!rest.isEmpty) (dosInfo name data)) :: listing rest

namespace InitFileSystem

section Listing

variable (memory : UInt32 → UInt8) {fs : InitFileSystem} {handle : Nat} {cursor : UInt32}

theorem fileSizeOfEntry {header : UInt32} {name data : List UInt8} (entry : EntryAt memory header name data) :
    getFileSize memory header = data.length.toUInt32 := by
  rw [← UInt32.toNat_inj, entryFileSize entry, UInt32.toNat_ofNat', Nat.mod_eq_of_lt (entryDataSmall entry)]

theorem moreAfter {header : UInt32} {rest : List (List UInt8 × List UInt8)} (laid : LaidOut memory header rest)
    (notTrailer : ∀ e ∈ rest, ¬ trailer <+: e.1) :
    (isValid memory header && !isTrailer memory header) = !rest.isEmpty := by
  cases rest with
  | nil =>
    have atTrailer : isTrailer memory header = true := by
      simp only [isTrailer, getFilenamePtr]
      exact beq_iff_eq.mpr laid
    simp [atTrailer]
  | cons entry later =>
    obtain ⟨here, -⟩ := laid
    have valid : isValid memory header = true := by simp [isValid, magic, here.magic]
    simp [valid, notIsTrailer memory (notTrailer entry List.mem_cons_self) here.nameBytes here.terminator]

theorem readDirAtEntry (directory : fs.openHandles.get handle = some (.directory cursor)) {name data : List UInt8}
    {rest : List (List UInt8 × List UInt8)} (laid : LaidOut memory (fs.cpioArchiveAddress + cursor) ((name, data) :: rest))
    (notTrailer : ∀ e ∈ (name, data) :: rest, ¬ trailer <+: e.1) (hasDot : dot ∈ name) (info : DirEntryInfo) :
    fs.readDir memory handle info =
      some ({ fs with openHandles :=
          (fs.openHandles.getMut handle fun _ => (.directory (cursor + (entrySize name data).toUInt32), ())).1 },
        dosInfo name data, .ok !rest.isEmpty) := by
  obtain ⟨here, later⟩ := laid
  have valid : isValid memory (fs.cpioArchiveAddress + cursor) = true := by simp [isValid, magic, here.magic]
  have notLast := notIsTrailer memory (notTrailer _ List.mem_cons_self) here.nameBytes here.terminator
  have more := moreAfter memory later fun e mem => notTrailer e (List.mem_cons_of_mem _ mem)
  simp only [readDir, directory, valid, notLast, Bool.not_true, Bool.false_eq_true, if_false,
    entryFilename here, copyFilenameSpec hasDot, Option.bind_eq_bind, Option.bind_some, entryLength here,
    fileSizeOfEntry memory here, more]
  rfl

theorem readDirPanics (directory : fs.openHandles.get handle = some (.directory cursor)) {name data : List UInt8}
    {rest : List (List UInt8 × List UInt8)} (laid : LaidOut memory (fs.cpioArchiveAddress + cursor) ((name, data) :: rest))
    (notTrailer : ¬ trailer <+: name) (noDot : dot ∉ name) (info : DirEntryInfo) :
    fs.readDir memory handle info = none := by
  obtain ⟨here, -⟩ := laid
  have valid : isValid memory (fs.cpioArchiveAddress + cursor) = true := by simp [isValid, magic, here.magic]
  have notLast := notIsTrailer memory notTrailer here.nameBytes here.terminator
  have panics : copyFilenameToDosStyle name = none := by
    simpa [Option.isNone_iff_eq_none] using mt (copyFilenameIsSome name).mp noDot
  simp [readDir, directory, valid, notLast, entryFilename here, panics]

theorem listingFrom (info : DirEntryInfo) (entries : List (List UInt8 × List UInt8))
    (notTrailer : ∀ e ∈ entries, ¬ trailer <+: e.1) (dots : ∀ e ∈ entries, dot ∈ e.1) :
    ∀ (fs : InitFileSystem) cursor, fs.openHandles.get handle = some (.directory cursor) →
      LaidOut memory (fs.cpioArchiveAddress + cursor) entries →
      ∃ fs', Machine.runWith (perform memory) fs (List.replicate entries.length (.readDir handle info)) =
        some (fs', listing entries) := by
  induction entries with
  | nil => exact fun fs _ _ _ => ⟨fs, rfl⟩
  | cons entry rest ih =>
    obtain ⟨name, data⟩ := entry
    intro fs cursor directory laid
    have listed := readDirAtEntry memory directory laid notTrailer (dots _ List.mem_cons_self) info
    generalize nextDef : ({ fs with openHandles :=
      (fs.openHandles.getMut handle fun _ => (.directory (cursor + (entrySize name data).toUInt32), ())).1 } :
        InitFileSystem) = next at listed
    have moved : next.openHandles.get handle = some (.directory (cursor + (entrySize name data).toUInt32)) := by
      simp [← nextDef, SlotList.getMutFst, directory]
    have laidNext : LaidOut memory (next.cpioArchiveAddress + (cursor + (entrySize name data).toUInt32)) rest := by
      rw [← nextDef, ← UInt32.add_assoc]
      exact laid.2
    obtain ⟨fs', run⟩ := ih (fun e mem => notTrailer e (List.mem_cons_of_mem _ mem))
      (fun e mem => dots e (List.mem_cons_of_mem _ mem)) next _ moved laidNext
    refine ⟨fs', ?_⟩
    simp only [List.length_cons, List.replicate_succ, Machine.runWith, perform, listed, Option.map_some,
      Option.bind_some, run, Option.map_some, listing, Except.map]

theorem openDirRoot (fs : InitFileSystem) :
    (fs.openDir []).1 = { fs with openHandles := (fs.openHandles.insert (.directory 0)).1 } := rfl

end Listing

theorem listingPanicsWithoutDot :
    (∀ memory (fs : InitFileSystem) entries info, (∀ e ∈ entries, ¬ trailer <+: e.1) → (∀ e ∈ entries, dot ∈ e.1) →
      LaidOut memory fs.cpioArchiveAddress entries →
        ∃ fs', Machine.runWith (perform memory) (fs.openDir []).1
          (List.replicate entries.length (.readDir (fs.openHandles.insert (.directory 0)).2 info)) =
            some (fs', listing entries)) ∧
    (∀ memory (fs : InitFileSystem) handle cursor name data rest info,
      fs.openHandles.get handle = some (.directory cursor) →
        LaidOut memory (fs.cpioArchiveAddress + cursor) ((name, data) :: rest) → ¬ trailer <+: name → dot ∉ name →
          fs.readDir memory handle info = none) ∧
    ((new 0x100000 64).openDir []).1.readDir (loadAt 0x100000 (encodeArchive [([0x41], [])])) 0
      ⟨[], [], .empty, 0⟩ = none := by
  refine ⟨fun memory fs entries info notTrailer dots laid => ?_,
    fun memory _ _ _ _ _ _ info directory laid notTrailer noDot => readDirPanics memory directory laid notTrailer noDot info,
    ?_⟩
  · have directory : (fs.openDir []).1.openHandles.get (fs.openHandles.insert (.directory 0)).2 =
        some (.directory 0) := by
      simp [openDirRoot fs, SlotList.getInsert]
    have atStart : LaidOut memory ((fs.openDir []).1.cpioArchiveAddress + 0) entries := by
      rw [UInt32.add_zero]
      exact laid
    exact listingFrom memory info entries notTrailer dots _ 0 directory atStart
  · have laid : LaidOut (loadAt 0x100000 (encodeArchive [([0x41], [])])) (0x100000 + 0) [([0x41], [])] := by
      simp only [LaidOut]
      refine ⟨⟨?_, ?_, ?_, ?_, ?_, ?_, ?_⟩, ?_⟩ <;> decide
    exact readDirPanics _ rfl laid (by decide) (by decide) _

end InitFileSystem

end ImmDosNx.Fs.InitFs
