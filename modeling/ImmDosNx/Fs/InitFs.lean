import Mathlib
import ImmDosNx.Collections.SlotList
import ImmDosNx.Files.Filename
import ImmDosNx.Fs.FileSystem
import ImmDosNx.Lib.Except

/-! InitFS (`fs/drivers/initfs.rs`): a read-only file system over a CPIO archive
in the old binary format, read in place from memory. Its open files and its root
directory are kept in a `SlotList`, and `close` removes the slot, so InitFS keeps
the `HandleTable` contract; a live handle is accepted by every call of its kind,
and `read_dir` fails only on a header without the CPIO magic. -/
namespace ImmDosNx.Fs.InitFs

open Files

section Archive

variable (memory : UInt32 → UInt8)

def u16At (address : UInt32) : Nat := (memory address).toNat + (memory (address + 1)).toNat * 256

def bytesAt (address : UInt32) (count : Nat) : List UInt8 :=
  (List.range count).map fun offset => memory (address + offset.toUInt32)

namespace CpioHeader

def magic (header : UInt32) : Nat := u16At memory header

def nameSize (header : UInt32) : Nat := u16At memory (header + 20)

def isValid (header : UInt32) : Bool := magic memory header == 0x71c7

def getFilenamePtr (header : UInt32) : UInt32 := header + 26

def getFileSize (header : UInt32) : UInt32 :=
  (u16At memory (header + 22) * 65536 + u16At memory (header + 24)).toUInt32

def getContentPtr (header : UInt32) : UInt32 :=
  let fileStart := getFilenamePtr header + (nameSize memory header).toUInt32
  if (fileStart - header) &&& 1 != 0 then fileStart + 1 else fileStart

def getFilename (header : UInt32) : List UInt8 :=
  bytesAt memory (getFilenamePtr header) (nameSize memory header - 1)

def trailer : List UInt8 := [0x54, 0x52, 0x41, 0x49, 0x4c, 0x45, 0x52, 0x21, 0x21, 0x21]

def isTrailer (header : UInt32) : Bool := bytesAt memory (getFilenamePtr header) trailer.length == trailer

def length (header : UInt32) : UInt32 :=
  let filenameLength := (nameSize memory header).toUInt32
  let filenameLength := if filenameLength &&& 1 != 0 then filenameLength + 1 else filenameLength
  let fileLength := getFileSize memory header
  let fileLength := if fileLength &&& 1 != 0 then fileLength + 1 else fileLength
  26 + filenameLength + fileLength

end CpioHeader

def cpioEntries (address : UInt32) : Nat → List UInt32
  | 0 => []
  | fuel + 1 =>
    if CpioHeader.isTrailer memory address then []
    else address :: cpioEntries (address + CpioHeader.length memory address) fuel

end Archive

structure OpenFile where
  cursor : UInt32
  length : UInt32
  headerStart : UInt32
  fileStart : UInt32
  deriving DecidableEq, Repr

inductive OpenHandle
  | file (openFile : OpenFile)
  | directory (cursor : UInt32)
  deriving DecidableEq, Repr

def OpenHandle.kind : OpenHandle → HandleKind
  | .file _ => .file
  | .directory _ => .directory

structure InitFileSystem where
  cpioArchiveAddress : UInt32
  archiveSize : UInt32
  openHandles : SlotList OpenHandle
  deriving DecidableEq, Repr

namespace InitFileSystem

def new (addr : UInt32) (size : UInt32) : InitFileSystem := ⟨addr, size, .new⟩

section Calls

variable (memory : UInt32 → UInt8) (fs : InitFileSystem)

def entries : List UInt32 := cpioEntries memory fs.cpioArchiveAddress fs.archiveSize.toNat

def «open» (path : List UInt8) : InitFileSystem × Except Unit Nat :=
  match (entries memory fs).find? (fun entry => CpioHeader.getFilename memory entry == localPath path) with
  | some entry =>
    let openFile : OpenFile :=
      ⟨0, CpioHeader.getFileSize memory entry, entry, CpioHeader.getContentPtr memory entry⟩
    let (openHandles, index) := fs.openHandles.insert (.file openFile)
    ({ fs with openHandles }, .ok index)
  | none => (fs, .error ())

def read (handle : Nat) (buffer : List UInt8) : InitFileSystem × List UInt8 × Except Unit UInt32 :=
  let (openHandles, found) := fs.openHandles.getMut handle fun
    | .file openFile =>
      let bytesLeftInFile := openFile.length - openFile.cursor
      let toRead := if bytesLeftInFile < buffer.length.toUInt32 then bytesLeftInFile else buffer.length.toUInt32
      (.file { openFile with cursor := openFile.cursor + toRead },
        some (openFile.fileStart + openFile.cursor, toRead))
    | .directory cursor => (.directory cursor, none)
  match found with
  | some (some (address, toRead)) =>
    ({ fs with openHandles }, bytesAt memory address toRead.toNat ++ buffer.drop toRead.toNat, .ok toRead)
  | _ => (fs, buffer, .error ())

def write (_handle : Nat) (_buffer : List UInt8) : Except Unit UInt32 := .ok 0

def close (handle : Nat) : InitFileSystem × Except Unit Unit :=
  let (openHandles, removed) := fs.openHandles.remove handle
  ({ fs with openHandles }, match removed with
    | some _ => .ok ()
    | none => .error ())

def reopen (handle : Nat) (_id : Nat) : InitFileSystem × Except Unit Nat :=
  match fs.openHandles.get handle with
  | some (.file openFile) =>
    let (openHandles, index) := fs.openHandles.insert (.file openFile)
    ({ fs with openHandles }, .ok index)
  | _ => (fs, .error ())

def ioctl (_handle : Nat) (_command _arg : UInt32) : Except Unit UInt32 := .error ()

def seek (handle : Nat) (offset : SeekMethod) : InitFileSystem × Except Unit UInt32 :=
  let (openHandles, found) := fs.openHandles.getMut handle fun
    | .file openFile =>
      let newCursor := offset.fromCurrentPosition openFile.cursor
      (.file { openFile with cursor := newCursor }, some newCursor)
    | .directory cursor => (.directory cursor, none)
  match found with
  | some (some newCursor) => ({ fs with openHandles }, .ok newCursor)
  | _ => (fs, .error ())

def openDir (path : List UInt8) : InitFileSystem × Except Unit Nat :=
  if path != [] then (fs, .error ())
  else
    let (openHandles, index) := fs.openHandles.insert (.directory 0)
    ({ fs with openHandles }, .ok index)

/-- The directory cursor is the offset of the next header from the start of the archive. `none` is the panic of a
name without a dot. -/
def readDir (handle : Nat) (info : DirEntryInfo) : Option (InitFileSystem × DirEntryInfo × Except Unit Bool) :=
  match fs.openHandles.get handle with
  | some (.directory cursor) =>
    let address := fs.cpioArchiveAddress + cursor
    if !CpioHeader.isValid memory address then some (fs, info, .error ())
    else if CpioHeader.isTrailer memory address then some (fs, info, .ok false)
    else do
      let (fileName, fileExt) ← copyFilenameToDosStyle (CpioHeader.getFilename memory address)
      let info : DirEntryInfo := ⟨fileName, fileExt, .file, CpioHeader.getFileSize memory address⟩
      let length := CpioHeader.length memory address
      let openHandles := (fs.openHandles.getMut handle fun _ => (.directory (cursor + length), ())).1
      let nextHeader := address + length
      some ({ fs with openHandles }, info,
        .ok (CpioHeader.isValid memory nextHeader && !CpioHeader.isTrailer memory nextHeader))
  | _ => some (fs, info, .error ())

def stat (handle : Nat) (status : FileStatus) : Except Unit FileStatus :=
  match fs.openHandles.get handle with
  | some (.file openFile) => .ok { status with byteSize := CpioHeader.getFileSize memory openFile.headerStart }
  | some (.directory _) => .ok status
  | none => .error ()

def perform : Call → Option (InitFileSystem × Except Unit Reply)
  | .open path => let (fs, result) := fs.«open» memory path; some (fs, result.map .handle)
  | .read handle buffer =>
    let (fs, buffer, result) := fs.read memory handle buffer
    some (fs, result.map fun count => .read count buffer)
  | .write handle buffer => some (fs, (write handle buffer).map .written)
  | .close handle => let (fs, result) := fs.close handle; some (fs, result.map fun _ => .closed)
  | .reopen handle id => let (fs, result) := fs.reopen handle id; some (fs, result.map .handle)
  | .seek handle offset => let (fs, result) := fs.seek handle offset; some (fs, result.map .position)
  | .openDir path => let (fs, result) := fs.openDir path; some (fs, result.map .handle)
  | .readDir handle info =>
    (fs.readDir memory handle info).map fun (fs, info, result) => (fs, result.map fun more => .entry more info)
  | .ioctl handle command arg => some (fs, (ioctl handle command arg).map .control)
  | .stat handle status => some (fs, (fs.stat memory handle status).map .status)

end Calls

def kind (fs : InitFileSystem) (handle : Nat) : Option HandleKind := (fs.openHandles.get handle).map OpenHandle.kind

@[simp] theorem kindEqNone (fs : InitFileSystem) (handle : Nat) :
    fs.kind handle = none ↔ fs.openHandles.get handle = none := Option.map_eq_none_iff

def HandsOut (fs : InitFileSystem) (k : HandleKind) (result : InitFileSystem × Except Unit Nat) : Prop :=
  result = (fs, .error ()) ∨
    ∃ h, result.2 = .ok h ∧ fs.kind h = none ∧ ∀ j, result.1.kind j = if j = h then some k else fs.kind j

theorem handsOutInsert (fs : InitFileSystem) (item : OpenHandle) :
    HandsOut fs item.kind ({ fs with openHandles := (fs.openHandles.insert item).1 }, .ok (fs.openHandles.insert item).2) := by
  refine .inr ⟨_, rfl, by simp [SlotList.insertFresh], fun j => ?_⟩
  simp only [kind, SlotList.getInsert]
  split <;> rfl

theorem kindGetMut {β : Type} (fs : InitFileSystem) (handle : Nat) (visit : OpenHandle → OpenHandle × β)
    (keeps : ∀ item, (visit item).1.kind = item.kind) (j : Nat) :
    ({ fs with openHandles := (fs.openHandles.getMut handle visit).1 } : InitFileSystem).kind j = fs.kind j :=
  SlotList.getMutPreserves _ _ _ _ keeps j

section Calls

variable (memory : UInt32 → UInt8) (fs : InitFileSystem)

theorem openHandsOut (path : List UInt8) : HandsOut fs .file (fs.«open» memory path) := by
  unfold «open»
  split
  · exact handsOutInsert fs _
  · exact .inl rfl

theorem reopenHandsOut (handle id : Nat) : HandsOut fs .file (fs.reopen handle id) := by
  unfold reopen
  split
  · exact handsOutInsert fs _
  · exact .inl rfl

theorem openDirHandsOut (path : List UInt8) : HandsOut fs .directory (fs.openDir path) := by
  unfold openDir
  split
  · exact .inl rfl
  · exact handsOutInsert fs _

theorem kindRead (handle : Nat) (buffer : List UInt8) (j : Nat) :
    (fs.read memory handle buffer).1.kind j = fs.kind j := by
  simp only [read]
  split
  · exact kindGetMut _ _ _ (fun item => by cases item <;> rfl) j
  · rfl

theorem kindSeek (handle : Nat) (offset : SeekMethod) (j : Nat) : (fs.seek handle offset).1.kind j = fs.kind j := by
  simp only [seek]
  split
  · exact kindGetMut _ _ _ (fun item => by cases item <;> rfl) j
  · rfl

theorem kindReadDir {handle : Nat} {info info' : DirEntryInfo} {t : InitFileSystem} {result : Except Unit Bool}
    (listed : fs.readDir memory handle info = some (t, info', result)) (j : Nat) : t.kind j = fs.kind j := by
  simp only [readDir] at listed
  split at listed
  · next cursor directory =>
    split at listed
    · cases listed; rfl
    split at listed
    · cases listed; rfl
    simp only [Option.bind_eq_bind, Option.bind_eq_some_iff, Option.some.injEq, Prod.mk.injEq] at listed
    obtain ⟨_, _, rfl, _, _⟩ := listed
    simp only [kind, SlotList.getMutFst, directory]
    split <;> simp_all [OpenHandle.kind]
  · cases listed; rfl

theorem kindClose (handle j : Nat) : (fs.close handle).1.kind j = if j = handle then none else fs.kind j := by
  simp only [close, kind, SlotList.getRemove]
  split <;> rfl

theorem closeResult (handle : Nat) :
    (fs.close handle).2 = if (fs.kind handle).isSome then .ok () else .error () := by
  simp only [close, SlotList.removeSnd, kind]
  split <;> simp_all

theorem closeAbsent {handle : Nat} (absent : fs.kind handle = none) : fs.close handle = (fs, .error ()) := by
  simp only [close, SlotList.removeAbsent _ ((kindEqNone fs handle).mp absent)]

theorem readAbsent {handle : Nat} (buffer : List UInt8) (absent : fs.kind handle = none) :
    fs.read memory handle buffer = (fs, buffer, .error ()) := by
  simp [read, SlotList.getMutAbsent _ _ ((kindEqNone fs handle).mp absent)]

theorem seekAbsent {handle : Nat} (offset : SeekMethod) (absent : fs.kind handle = none) :
    fs.seek handle offset = (fs, .error ()) := by
  simp [seek, SlotList.getMutAbsent _ _ ((kindEqNone fs handle).mp absent)]

theorem reopenAbsent {handle : Nat} (id : Nat) (absent : fs.kind handle = none) :
    fs.reopen handle id = (fs, .error ()) := by
  simp [reopen, (kindEqNone fs handle).mp absent]

theorem readDirAbsent {handle : Nat} (info : DirEntryInfo) (absent : fs.kind handle = none) :
    fs.readDir memory handle info = some (fs, info, .error ()) := by
  simp [readDir, (kindEqNone fs handle).mp absent]

theorem handedOutHandsOut {k : HandleKind} {result : InitFileSystem × Except Unit Nat}
    (hands : HandsOut fs k result) :
    (∃ k h, handedOut (result.2.map .handle) = some h ∧ fs.kind h = none ∧
      ∀ j, result.1.kind j = if j = h then some k else fs.kind j) ∨
    (handedOut (result.2.map .handle) = none ∧ ∀ j, result.1.kind j = fs.kind j) := by
  rcases hands with failed | ⟨h, opened, free, kinds⟩
  · subst failed
    exact .inr ⟨rfl, fun _ => rfl⟩
  · exact .inl ⟨k, h, by simp [opened, Except.map, handedOut], free, kinds⟩

theorem performKinds {c : Call} {t : InitFileSystem} {r : Except Unit Reply}
    (step : perform memory fs c = some (t, r)) :
    (∃ k h, handedOut r = some h ∧ fs.kind h = none ∧ ∀ j, t.kind j = if j = h then some k else fs.kind j) ∨
    (handedOut r = none ∧ ∀ j, t.kind j = if c = .close j then none else fs.kind j) := by
  cases c with
  | «open» path =>
    simp only [perform, Option.some.injEq, Prod.mk.injEq] at step
    obtain ⟨rfl, rfl⟩ := step
    rcases handedOutHandsOut fs (openHandsOut memory fs path) with handed | ⟨none, kinds⟩
    · exact .inl handed
    · exact .inr ⟨none, fun j => by simp [kinds]⟩
  | close handle =>
    simp only [perform, Option.some.injEq, Prod.mk.injEq] at step
    obtain ⟨rfl, rfl⟩ := step
    refine .inr ⟨handedOutMap _ fun _ _ => Reply.noConfusion, fun j => ?_⟩
    rw [kindClose]
    by_cases same : j = handle
    · subst same; simp
    · simp [same, Ne.symm same]
  | reopen handle id =>
    simp only [perform, Option.some.injEq, Prod.mk.injEq] at step
    obtain ⟨rfl, rfl⟩ := step
    rcases handedOutHandsOut fs (reopenHandsOut fs handle id) with handed | ⟨none, kinds⟩
    · exact .inl handed
    · exact .inr ⟨none, fun j => by simp [kinds]⟩
  | openDir path =>
    simp only [perform, Option.some.injEq, Prod.mk.injEq] at step
    obtain ⟨rfl, rfl⟩ := step
    rcases handedOutHandsOut fs (openDirHandsOut fs path) with handed | ⟨none, kinds⟩
    · exact .inl handed
    · exact .inr ⟨none, fun j => by simp [kinds]⟩
  | readDir handle info =>
    simp only [perform, Option.map_eq_some_iff, Prod.exists, Prod.mk.injEq] at step
    obtain ⟨t', info', result, listed, rfl, rfl⟩ := step
    exact .inr ⟨handedOutMap _ fun _ _ => Reply.noConfusion, fun j => by simp [kindReadDir memory fs listed]⟩
  | read | write | seek | ioctl | stat =>
    simp only [perform, Option.some.injEq, Prod.mk.injEq] at step
    obtain ⟨rfl, rfl⟩ := step
    exact .inr ⟨handedOutMap _ fun _ _ => Reply.noConfusion, fun j => by simp [kindRead, kindSeek]⟩

theorem performRejectsFree {c : Call} {handle : Nat} (looks : c.lookup = some handle)
    (absent : fs.kind handle = none) : perform memory fs c = some (fs, .error ()) := by
  cases c <;> simp only [Call.lookup, Option.some.injEq, reduceCtorEq] at looks <;> subst looks
  · simp [perform, readAbsent memory fs _ absent, Except.map]
  · simp [perform, closeAbsent fs absent, Except.map]
  · simp [perform, reopenAbsent fs _ absent, Except.map]
  · simp [perform, seekAbsent fs _ absent, Except.map]
  · simp [perform, readDirAbsent memory fs _ absent, Except.map]

theorem closeLiveOk {handle : Nat} (live : (fs.kind handle).isSome) :
    perform memory fs (.close handle) = some ((fs.close handle).1, .ok .closed) := by
  simp [perform, closeResult, live, Except.map]

theorem readFileAccepted {handle : Nat} {openFile : OpenFile} (file : fs.openHandles.get handle = some (.file openFile))
    (buffer : List UInt8) : ∃ count, (fs.read memory handle buffer).2.2 = .ok count := by
  simp [read, SlotList.getMutSnd, file]

theorem seekFileAccepted {handle : Nat} {openFile : OpenFile} (file : fs.openHandles.get handle = some (.file openFile))
    (offset : SeekMethod) : ∃ cursor, (fs.seek handle offset).2 = .ok cursor := by
  simp [seek, SlotList.getMutSnd, file]

theorem reopenFileAccepted {handle : Nat} {openFile : OpenFile} (file : fs.openHandles.get handle = some (.file openFile))
    (id : Nat) : ∃ index, (fs.reopen handle id).2 = .ok index := by
  simp [reopen, file]

theorem readDirectoryRefused {handle : Nat} {cursor : UInt32} (directory : fs.openHandles.get handle = some (.directory cursor))
    (buffer : List UInt8) : fs.read memory handle buffer = (fs, buffer, .error ()) := by
  simp [read, SlotList.getMutSnd, directory]

theorem seekDirectoryRefused {handle : Nat} {cursor : UInt32} (directory : fs.openHandles.get handle = some (.directory cursor))
    (offset : SeekMethod) : fs.seek handle offset = (fs, .error ()) := by
  simp [seek, SlotList.getMutSnd, directory]

theorem reopenDirectoryRefused {handle : Nat} {cursor : UInt32} (directory : fs.openHandles.get handle = some (.directory cursor))
    (id : Nat) : fs.reopen handle id = (fs, .error ()) := by
  simp [reopen, directory]

theorem readDirFileRefused {handle : Nat} {openFile : OpenFile} (file : fs.openHandles.get handle = some (.file openFile))
    (info : DirEntryInfo) : fs.readDir memory handle info = some (fs, info, .error ()) := by
  simp [readDir, file]

theorem readDirErrorIff {handle : Nat} {cursor : UInt32} (directory : fs.openHandles.get handle = some (.directory cursor))
    (info : DirEntryInfo) {t : InitFileSystem} {info' : DirEntryInfo} :
    fs.readDir memory handle info = some (t, info', .error ()) ↔
      CpioHeader.isValid memory (fs.cpioArchiveAddress + cursor) = false ∧ t = fs ∧ info' = info := by
  simp only [readDir, directory]
  by_cases valid : CpioHeader.isValid memory (fs.cpioArchiveAddress + cursor) = true
  · simp only [valid, Bool.not_true, Bool.false_eq_true, if_false, Bool.true_eq_false, false_and, iff_false]
    split
    · simp
    · cases copyFilenameToDosStyle (CpioHeader.getFilename memory (fs.cpioArchiveAddress + cursor)) <;> simp
  · simp only [Bool.not_eq_true] at valid
    simp [valid, eq_comm]

theorem initFsHandleTable : HandleTable (perform memory) kind where
  fresh := fun step => by
    rcases performKinds memory _ step with ⟨_, h', handed, free, _⟩ | ⟨none, _⟩
    · simp only [handedOut, Option.some.injEq] at handed
      exact handed ▸ free
    · simp [handedOut] at none
  frame := fun {_ c _ _ h} step notClose notHanded => by
    rcases performKinds memory _ step with ⟨_, h', handed, _, kinds⟩ | ⟨_, kinds⟩
    · rw [kinds, if_neg]
      rintro rfl
      exact notHanded handed
    · rw [kinds, if_neg notClose]
  closeLive := fun live => ⟨_, closeLiveOk memory _ live⟩
  closeFrees := fun step => by
    simp only [perform, Option.some.injEq, Prod.mk.injEq] at step
    obtain ⟨rfl, -⟩ := step
    simp [kindClose]
  rejectFree := fun looks absent => performRejectsFree memory _ looks absent

end Calls

end InitFileSystem

/-! ### Reading a file -/

def OpenFile.content (memory : UInt32 → UInt8) (f : OpenFile) (k : Nat) : UInt8 := memory (f.fileStart + k.toUInt32)

namespace InitFileSystem

section Reads

variable (memory : UInt32 → UInt8) (fs : InitFileSystem) {handle : Nat} {f : OpenFile}

theorem readOfFile (file : fs.openHandles.get handle = some (.file f)) (buffer : List UInt8) :
    let toRead := if f.length - f.cursor < buffer.length.toUInt32 then f.length - f.cursor else buffer.length.toUInt32
    (fs.read memory handle buffer).2 =
        (bytesAt memory (f.fileStart + f.cursor) toRead.toNat ++ buffer.drop toRead.toNat, .ok toRead) ∧
      ∀ j, (fs.read memory handle buffer).1.openHandles.get j =
        if j = handle then some (.file { f with cursor := f.cursor + toRead }) else fs.openHandles.get j := by
  refine ⟨by simp [read, SlotList.getMutSnd, file], fun j => ?_⟩
  simp only [read, SlotList.getMutSnd, file, Option.map_some]
  rw [SlotList.getMutFst, file]
  rfl

theorem seekOfFile (file : fs.openHandles.get handle = some (.file f)) (offset : SeekMethod) :
    (fs.seek handle offset).2 = .ok (offset.fromCurrentPosition f.cursor) ∧
      ∀ j, (fs.seek handle offset).1.openHandles.get j =
        if j = handle then some (.file { f with cursor := offset.fromCurrentPosition f.cursor })
        else fs.openHandles.get j := by
  refine ⟨by simp [seek, SlotList.getMutSnd, file], fun j => ?_⟩
  simp only [seek, SlotList.getMutSnd, file, Option.map_some]
  rw [SlotList.getMutFst, file]
  rfl

theorem bytesAtContent (f : OpenFile) (n : Nat) :
    bytesAt memory (f.fileStart + f.cursor) n = (List.range n).map fun i => f.content memory (f.cursor.toNat + i) := by
  unfold bytesAt OpenFile.content
  congr 1
  funext i
  have shifted : (f.cursor.toNat + i).toUInt32 = f.cursor + i.toUInt32 := by
    apply UInt32.toNat_inj.mp
    simp [UInt32.toNat_add]
  rw [shifted, UInt32.add_assoc]

theorem readWithinFile (file : fs.openHandles.get handle = some (.file f)) (within : f.cursor ≤ f.length)
    (buffer : List UInt8) (small : buffer.length < 2 ^ 32) :
    let n := min buffer.length (f.length.toNat - f.cursor.toNat)
    (fs.read memory handle buffer).2 =
        ((List.range n).map (fun i => f.content memory (f.cursor.toNat + i)) ++ buffer.drop n, .ok n.toUInt32) ∧
      (fs.read memory handle buffer).1.openHandles.get handle = some (.file { f with cursor := f.cursor + n.toUInt32 }) ∧
      f.cursor.toNat + n ≤ f.length.toNat := by
  intro n
  obtain ⟨answer, table⟩ := readOfFile memory fs file buffer
  have left : (f.length - f.cursor).toNat = f.length.toNat - f.cursor.toNat := UInt32.toNat_sub_of_le _ _ within
  have size : buffer.length.toUInt32.toNat = buffer.length := by simp; omega
  have toRead : (if f.length - f.cursor < buffer.length.toUInt32 then f.length - f.cursor
      else buffer.length.toUInt32) = n.toUInt32 := by
    apply UInt32.toNat_inj.mp
    split
    · next fewer =>
      rw [UInt32.lt_iff_toNat_lt, left, size] at fewer
      simp only [Nat.toUInt32_eq, UInt32.toNat_ofNat', left]
      omega
    · next more =>
      rw [UInt32.lt_iff_toNat_lt, left, size] at more
      simp only [Nat.toUInt32_eq, UInt32.toNat_ofNat', size]
      omega
  have count : n.toUInt32.toNat = n := by simp; omega
  rw [toRead, count, bytesAtContent] at answer
  rw [toRead] at table
  have withinNat : f.cursor.toNat ≤ f.length.toNat := UInt32.le_iff_toNat_le.mp within
  exact ⟨answer, by rw [table handle, if_pos rfl], by omega⟩

theorem readPastEnd (file : fs.openHandles.get handle = some (.file f)) (past : f.length < f.cursor)
    (buffer : List UInt8) (fits : buffer.length ≤ 2 ^ 32 - (f.cursor.toNat - f.length.toNat)) :
    (fs.read memory handle buffer).2 =
      ((List.range buffer.length).map (fun i => f.content memory (f.cursor.toNat + i)), .ok buffer.length.toUInt32) := by
  obtain ⟨answer, -⟩ := readOfFile memory fs file buffer
  have pastNat : f.length.toNat < f.cursor.toNat := UInt32.lt_iff_toNat_lt.mp past
  have left : (f.length - f.cursor).toNat = 2 ^ 32 - (f.cursor.toNat - f.length.toNat) := by
    rw [UInt32.toNat_sub]
    have := UInt32.toNat_lt f.cursor
    omega
  have size : buffer.length.toUInt32.toNat = buffer.length := by
    simp
    omega
  have whole : ¬ f.length - f.cursor < buffer.length.toUInt32 := by
    rw [UInt32.lt_iff_toNat_lt, left, size]
    omega
  rw [if_neg whole, size, bytesAtContent, List.drop_length, List.append_nil] at answer
  exact answer

end Reads

theorem readPastEndLeavesFile :
    (∀ memory (fs : InitFileSystem) handle (f : OpenFile) buffer,
      fs.openHandles.get handle = some (.file f) → f.cursor ≤ f.length → buffer.length < 2 ^ 32 →
        let n := min buffer.length (f.length.toNat - f.cursor.toNat)
        (fs.read memory handle buffer).2 =
            ((List.range n).map (fun i => f.content memory (f.cursor.toNat + i)) ++ buffer.drop n, .ok n.toUInt32) ∧
          (fs.read memory handle buffer).1.openHandles.get handle =
            some (.file { f with cursor := f.cursor + n.toUInt32 }) ∧
          f.cursor.toNat + n ≤ f.length.toNat) ∧
    (∀ (fs : InitFileSystem) handle (f : OpenFile) offset, fs.openHandles.get handle = some (.file f) →
      (fs.seek handle offset).2 = .ok (offset.fromCurrentPosition f.cursor) ∧
        (fs.seek handle offset).1.openHandles.get handle =
          some (.file { f with cursor := offset.fromCurrentPosition f.cursor })) ∧
    (∀ memory (fs : InitFileSystem) handle (f : OpenFile) buffer,
      fs.openHandles.get handle = some (.file f) → f.length < f.cursor →
        buffer.length ≤ 2 ^ 32 - (f.cursor.toNat - f.length.toNat) →
        (fs.read memory handle buffer).2 =
          ((List.range buffer.length).map (fun i => f.content memory (f.cursor.toNat + i)),
            .ok buffer.length.toUInt32)) ∧
    let fs : InitFileSystem := ⟨0, 0, ⟨[some (.file ⟨0, 4, 0, 0x1000⟩)]⟩⟩
    (((fs.seek 0 (.absolute 8)).1.read (fun address => address.toUInt8) 0 [0, 0]).2.1 = [8, 9] ∧
      ((fs.seek 0 (.absolute 8)).1.read (fun address => address.toUInt8) 0 [0, 0]).2.2 = .ok 2) := by
  refine ⟨fun memory fs _ _ buffer file within small => readWithinFile memory fs file within buffer small,
    fun fs _ _ offset file => ?_, fun memory fs _ _ buffer file past fits => readPastEnd memory fs file past buffer fits,
    by decide, rfl⟩
  obtain ⟨answer, table⟩ := seekOfFile fs file offset
  exact ⟨answer, by rw [table, if_pos rfl]⟩

end InitFileSystem

end ImmDosNx.Fs.InitFs
