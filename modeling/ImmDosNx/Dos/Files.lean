import ImmDosNx.Collections.SlotList
import ImmDosNx.Lib.Run

/-! The DOS file calls (`dos/files.rs`). Int 21h AH=3Dh opens a path through the
kernel and files the kernel handle in the first empty byte of the PSP's 20-entry
handle table; AH=3Fh reads through the handle in slot BX. The table stores kernel
handles cut to a byte, with 0xff for an empty slot, so it stands for a table of
kernel handles only while every handle stays below 255. -/
namespace ImmDosNx.Dos

inductive DosError
  | fileNotFound
  | invalidHandle
  | invalidEnvironment
  | noMoreFiles
  | readFault
  deriving DecidableEq, Repr

inductive SystemError
  | unknown
  | noSuchFileSystem
  | noSuchEntity
  | badFileDescriptor
  | ioError
  deriving DecidableEq, Repr

structure OpenFile where
  drive : Nat
  localHandle : UInt32
  deriving DecidableEq, Repr

structure PSP where
  fileHandles : List UInt8
  sized : fileHandles.length = 20
  deriving DecidableEq

namespace PSP

def reset : PSP := ⟨[0, 1, 2, 3, 4] ++ List.replicate 15 0xff, rfl⟩

def findEmptyFileHandle (psp : PSP) : Option Nat := psp.fileHandles.findIdx? (· == 0xff)

def setFileHandle (psp : PSP) (index : Nat) (raw : UInt8) : PSP :=
  ⟨psp.fileHandles.set index raw, by rw [List.length_set, psp.sized]⟩

end PSP

structure DosProcess where
  openFiles : SlotList OpenFile
  psp : Option PSP
  deriving DecidableEq

namespace DosProcess

def openFile (p : DosProcess) (file : OpenFile) : DosProcess × UInt32 :=
  let (openFiles, index) := p.openFiles.insert file
  ({ p with openFiles }, index.toUInt32)

def getOpenFileInfo (p : DosProcess) (handle : UInt32) : Option OpenFile := p.openFiles.get handle.toNat

end DosProcess

/-- task::io::open_path, given what resolving the path and opening it on its drive gave. -/
def openPath (p : DosProcess) (opened : Except SystemError OpenFile) :
    Except SystemError (DosProcess × UInt32) :=
  opened.map p.openFile

/-- task::io::read_file, given the drive's read of an open file into the buffer. -/
def ioReadFile (p : DosProcess) (handle : UInt32) (read : OpenFile → Except SystemError Nat) :
    Except SystemError Nat :=
  match p.getOpenFileInfo handle with
  | none => .error .badFileDescriptor
  | some info => read info

def openFile (p : DosProcess) (opened : Except SystemError OpenFile) : DosProcess × Except DosError Nat :=
  match openPath p opened with
  | .error _ => (p, .error .fileNotFound)
  | .ok (p, handle) =>
    match p.psp with
    | none => (p, .error .invalidEnvironment)
    | some psp =>
      match psp.findEmptyFileHandle with
      | none => (p, .error .noMoreFiles)
      | some handleIndex => ({ p with psp := some (psp.setFileHandle handleIndex handle.toUInt8) }, .ok handleIndex)

/-- The bound check lets BX = 20 through; `none` is the panic of the index past the table. -/
def readFile (p : DosProcess) (bx : UInt32) (read : OpenFile → Except SystemError Nat) :
    Option (Except DosError Nat) :=
  match p.psp with
  | none => some (.error .invalidEnvironment)
  | some psp =>
    let handleIndex := bx.toNat
    if handleIndex > psp.fileHandles.length then some (.error .invalidHandle)
    else
      match psp.fileHandles[handleIndex]? with
      | none => none
      | some rawHandle =>
        if rawHandle = 0xff then some (.error .invalidHandle)
        else some ((ioReadFile p rawHandle.toUInt32 read).mapError fun _ => .readFault)

inductive Call
  | openFile (opened : Except SystemError OpenFile)
  | readFile (bx : UInt32) (read : OpenFile → Except SystemError Nat)

def Call.isOpen : Call → Bool
  | .openFile _ => true
  | .readFile _ _ => false

def perform (p : DosProcess) : Call → Option (DosProcess × Except DosError Nat)
  | .openFile opened => some (openFile p opened)
  | .readFile bx read => (readFile p bx read).map fun answer => (p, answer)

section Calls

variable {p : DosProcess} {psp : PSP}

theorem findEmptyFileHandleSome {index : Nat} (found : psp.findEmptyFileHandle = some index) :
    psp.fileHandles[index]? = some 0xff ∧ ∀ j < index, psp.fileHandles[j]? ≠ some 0xff := by
  obtain ⟨inside, empty, before⟩ := List.findIdx?_eq_some_iff_getElem.mp found
  refine ⟨by simpa [List.getElem?_eq_getElem inside] using empty, fun j lt => ?_⟩
  have used := before j lt
  simpa [List.getElem?_eq_getElem (Nat.lt_trans lt inside)] using used

theorem findEmptyFileHandleNone : psp.findEmptyFileHandle = none ↔ 0xff ∉ psp.fileHandles := by
  simp only [PSP.findEmptyFileHandle, List.findIdx?_eq_none_iff, beq_eq_false_iff_ne, ne_eq]
  exact ⟨fun none full => none _ full rfl, fun absent x mem same => absent (same ▸ mem)⟩

theorem openFileOk (hasPsp : p.psp = some psp) (file : OpenFile) :
    openFile p (.ok file) =
      match psp.findEmptyFileHandle with
      | none => ((p.openFile file).1, .error .noMoreFiles)
      | some index =>
        ({ (p.openFile file).1 with psp := some (psp.setFileHandle index (p.openFile file).2.toUInt8) }, .ok index) := by
  simp [openFile, openPath, Except.map, DosProcess.openFile, hasPsp]

theorem openFileNoMoreFiles (hasPsp : p.psp = some psp) (file : OpenFile) :
    (openFile p (.ok file)).2 = .error .noMoreFiles ↔ 0xff ∉ psp.fileHandles := by
  rw [openFileOk hasPsp, ← findEmptyFileHandleNone]
  cases psp.findEmptyFileHandle <;> simp

theorem openFileIntoEmpty (hasPsp : p.psp = some psp) {opened : Except SystemError OpenFile} {index : Nat}
    (ok : (openFile p opened).2 = .ok index) :
    ∃ file, opened = .ok file ∧ psp.findEmptyFileHandle = some index ∧
      (openFile p opened).1 = { (p.openFile file).1 with psp := some (psp.setFileHandle index (p.openFile file).2.toUInt8) } := by
  cases opened with
  | error e => simp [openFile, openPath, Except.map] at ok
  | ok file =>
    rw [openFileOk hasPsp] at ok ⊢
    cases found : psp.findEmptyFileHandle with
    | none => simp [found] at ok
    | some slot =>
      simp only [found, Except.ok.injEq] at ok
      subst ok
      exact ⟨file, rfl, rfl, rfl⟩

theorem readFileStored (hasPsp : p.psp = some psp) {file : OpenFile} {q : DosProcess} {index : Nat}
    (ok : openFile p (.ok file) = (q, .ok index)) (read : OpenFile → Except SystemError Nat) :
    readFile q index.toUInt32 read =
      if (p.openFile file).2.toUInt8 = 0xff then some (.error .invalidHandle)
      else some ((ioReadFile q (p.openFile file).2.toUInt8.toUInt32 read).mapError fun _ => .readFault) := by
  obtain ⟨_, same, found, stored⟩ := openFileIntoEmpty hasPsp (congrArg Prod.snd ok)
  cases same
  rw [ok] at stored
  have inside := (List.findIdx?_eq_some_iff_getElem.mp found).1
  rw [psp.sized] at inside
  have small : index.toUInt32.toNat = index := by simp; omega
  subst stored
  simp [readFile, small, PSP.setFileHandle, psp.sized, inside, Nat.not_lt_of_le (Nat.le_of_lt inside)]

theorem readFileEndPanics (hasPsp : p.psp = some psp) (read : OpenFile → Except SystemError Nat) :
    readFile p 20 read = none := by
  simp [readFile, hasPsp, psp.sized]

end Calls

/-! What the handle table is for: each DOS handle names a kernel handle, or nothing.
A read of an unnamed handle is refused whatever BX holds. -/

structure HandleTable where
  openFiles : SlotList OpenFile
  handles : List (Option Nat)

namespace HandleTable

def resetHandles : List (Option Nat) := [some 0, some 1, some 2, some 3, some 4] ++ List.replicate 15 none

def openFile (t : HandleTable) (opened : Except SystemError OpenFile) : HandleTable × Except DosError Nat :=
  match opened with
  | .error _ => (t, .error .fileNotFound)
  | .ok file =>
    let (openFiles, handle) := t.openFiles.insert file
    match t.handles.findIdx? Option.isNone with
    | none => ({ t with openFiles }, .error .noMoreFiles)
    | some index => (⟨openFiles, t.handles.set index (some handle)⟩, .ok index)

def readFile (t : HandleTable) (bx : UInt32) (read : OpenFile → Except SystemError Nat) : Except DosError Nat :=
  match t.handles[bx.toNat]? with
  | some (some handle) =>
    match t.openFiles.get handle with
    | none => .error .readFault
    | some info => (read info).mapError fun _ => .readFault
  | _ => .error .invalidHandle

def perform (t : HandleTable) : Call → Option (HandleTable × Except DosError Nat)
  | .openFile opened => some (t.openFile opened)
  | .readFile bx read => some (t, t.readFile bx read)

theorem openFileGrows (t : HandleTable) (opened : Except SystemError OpenFile) :
    (t.openFile opened).1.openFiles.slots.length ≤ t.openFiles.slots.length + 1 := by
  cases opened with
  | error e => exact Nat.le_succ _
  | ok file =>
    have grows := (t.openFiles.insertGrows file).2
    simp only [openFile]
    split <;> exact grows

end HandleTable

def encode : Option Nat → UInt8
  | none => 0xff
  | some handle => handle.toUInt32.toUInt8

structure Represents (p : DosProcess) (t : HandleTable) : Prop where
  files : p.openFiles = t.openFiles
  table : p.psp.map PSP.fileHandles = some (t.handles.map encode)
  narrow : ∀ handle, some handle ∈ t.handles → handle < 255

section Refinement

variable {p : DosProcess} {t : HandleTable}

theorem encodeNarrow {handle : Nat} (narrow : handle < 255) : (encode (some handle)).toNat = handle := by
  simp only [encode, UInt32.toNat_toUInt8]
  simp
  omega

theorem encodeSomeNotEmpty {handle : Nat} (narrow : handle < 255) : encode (some handle) ≠ 0xff := by
  intro full
  have stored := encodeNarrow narrow
  rw [full] at stored
  simp at stored
  omega

theorem encodeEmpty {e : Option Nat} (narrow : ∀ handle, e = some handle → handle < 255) :
    (encode e == 0xff) = e.isNone := by
  cases e with
  | none => rfl
  | some handle => simpa using encodeSomeNotEmpty (narrow handle rfl)

theorem findEmptyRepresents {handles : List (Option Nat)} (narrow : ∀ handle, some handle ∈ handles → handle < 255) :
    (handles.map encode).findIdx? (· == 0xff) = handles.findIdx? Option.isNone := by
  induction handles with
  | nil => rfl
  | cons e rest ih =>
    have head : (encode e == 0xff) = e.isNone :=
      encodeEmpty fun handle same => narrow handle (same ▸ List.mem_cons_self)
    simp only [List.map_cons, List.findIdx?_cons, head,
      ih fun handle mem => narrow handle (List.mem_cons_of_mem _ mem)]

theorem representsTable (rep : Represents p t) :
    ∃ psp : PSP, p.psp = some psp ∧ psp.fileHandles = t.handles.map encode ∧ t.handles.length = 20 := by
  obtain ⟨psp, hasPsp, stored⟩ := Option.map_eq_some_iff.mp rep.table
  refine ⟨psp, hasPsp, stored, ?_⟩
  rw [← psp.sized, stored, List.length_map]

theorem readFileRepresents (rep : Represents p t) {bx : UInt32} (notEnd : bx.toNat ≠ 20)
    (read : OpenFile → Except SystemError Nat) : readFile p bx read = some (t.readFile bx read) := by
  obtain ⟨psp, hasPsp, stored, length⟩ := representsTable rep
  simp only [readFile, hasPsp, psp.sized]
  by_cases beyond : bx.toNat > 20
  · have outside : t.handles[bx.toNat]? = none := List.getElem?_eq_none (by omega)
    simp [beyond, HandleTable.readFile, outside]
  · have inside : bx.toNat < t.handles.length := by omega
    generalize slot : t.handles[bx.toNat] = e
    have atSlot : t.handles[bx.toNat]? = some e := by rw [List.getElem?_eq_getElem inside, slot]
    simp only [beyond, if_false, stored, List.getElem?_map, atSlot, Option.map_some, HandleTable.readFile]
    cases e with
    | none => rfl
    | some handle =>
      have below := rep.narrow handle (slot ▸ List.getElem_mem inside)
      simp only [encodeSomeNotEmpty below, if_false, ioReadFile, DosProcess.getOpenFileInfo, UInt8.toNat_toUInt32,
        encodeNarrow below, rep.files]
      cases t.openFiles.get handle <;> rfl

theorem openFileRepresents (rep : Represents p t) {opened : Except SystemError OpenFile}
    (fits : ∀ file, opened = .ok file → (t.openFiles.insert file).2 < 255) :
    (openFile p opened).2 = (t.openFile opened).2 ∧ Represents (openFile p opened).1 (t.openFile opened).1 := by
  obtain ⟨psp, hasPsp, stored, -⟩ := representsTable rep
  cases opened with
  | error e => exact ⟨rfl, rep⟩
  | ok file =>
    have below := fits file rfl
    have search : psp.findEmptyFileHandle = t.handles.findIdx? Option.isNone := by
      rw [PSP.findEmptyFileHandle, stored, findEmptyRepresents rep.narrow]
    simp only [openFile, openPath, Except.map, DosProcess.openFile, hasPsp, search, HandleTable.openFile, rep.files]
    cases t.handles.findIdx? Option.isNone with
    | none => exact ⟨rfl, ⟨rfl, by simpa [hasPsp] using rep.table, rep.narrow⟩⟩
    | some index =>
      refine ⟨rfl, ⟨rfl, by simp [PSP.setFileHandle, stored, List.map_set, encode], ?_⟩⟩
      intro handle mem
      rcases List.mem_or_eq_of_mem_set mem with old | new
      · exact rep.narrow handle old
      · cases new
        exact below

theorem runRepresents (calls : List Call) : ∀ p t, Represents p t →
    p.openFiles.slots.length + calls.countP Call.isOpen ≤ 255 →
    (∀ bx read, Call.readFile bx read ∈ calls → bx.toNat ≠ 20) →
    ∃ p' t' answers, Machine.runWith perform p calls = some (p', answers) ∧
      Machine.runWith HandleTable.perform t calls = some (t', answers) ∧ Represents p' t' := by
  induction calls with
  | nil => exact fun p t rep _ _ => ⟨p, t, [], rfl, rfl, rep⟩
  | cons call rest ih =>
    intro p t rep budget notEnd
    rw [rep.files] at budget
    have later : ∀ bx read, Call.readFile bx read ∈ rest → bx.toNat ≠ 20 :=
      fun bx read mem => notEnd bx read (List.mem_cons_of_mem _ mem)
    cases call with
    | openFile opened =>
      simp only [List.countP_cons, Call.isOpen, if_true] at budget
      have fits : ∀ file, opened = .ok file → (t.openFiles.insert file).2 < 255 := by
        intro file _
        have index := (t.openFiles.insertGrows file).1
        omega
      obtain ⟨answered, next⟩ := openFileRepresents rep fits
      have grows := t.openFileGrows opened
      rw [← next.files] at grows
      obtain ⟨p', t', answers, concrete, abstract, atEnd⟩ := ih _ _ next (by omega) later
      refine ⟨p', t', (openFile p opened).2 :: answers, ?_, ?_, atEnd⟩
      · simp [Machine.runWith, perform, concrete]
      · simp [Machine.runWith, HandleTable.perform, abstract, answered]
    | readFile bx read =>
      simp only [List.countP_cons, Call.isOpen, Bool.false_eq_true, if_false, Nat.add_zero] at budget
      have same := readFileRepresents rep (notEnd bx read List.mem_cons_self) read
      obtain ⟨p', t', answers, concrete, abstract, atEnd⟩ := ih p t rep (by rw [rep.files]; exact budget) later
      refine ⟨p', t', t.readFile bx read :: answers, ?_, ?_, atEnd⟩
      · simp [Machine.runWith, perform, same, concrete]
      · simp [Machine.runWith, HandleTable.perform, abstract]

end Refinement

theorem dosHandlesTruncateKernelHandles :
    (∀ calls p t, Represents p t → p.openFiles.slots.length + calls.countP Call.isOpen ≤ 255 →
      (∀ bx read, Call.readFile bx read ∈ calls → bx.toNat ≠ 20) →
        ∃ p' t' answers, Machine.runWith perform p calls = some (p', answers) ∧
          Machine.runWith HandleTable.perform t calls = some (t', answers) ∧ Represents p' t') ∧
    (∀ p psp opened index, p.psp = some psp → (openFile p opened).2 = .ok index →
      psp.fileHandles[index]? = some 0xff) ∧
    (∀ p psp file, p.psp = some psp → ((openFile p (.ok file)).2 = .error .noMoreFiles ↔ 0xff ∉ psp.fileHandles)) ∧
    (∀ p psp read, p.psp = some psp → readFile p 20 read = none) ∧
    (∀ p psp file q index read, p.psp = some psp → openFile p (.ok file) = (q, .ok index) →
      (p.openFile file).2 = 255 → readFile q index.toUInt32 read = some (.error .invalidHandle)) ∧
    (∀ p psp file q index read, p.psp = some psp → openFile p (.ok file) = (q, .ok index) →
      (p.openFile file).2 = 256 →
        readFile q index.toUInt32 read = some ((ioReadFile q 0 read).mapError fun _ => .readFault)) ∧
    (∃ q, openFile ⟨⟨List.replicate 255 (some ⟨0, 0⟩)⟩, some PSP.reset⟩ (.ok ⟨1, 0⟩) = (q, .ok 5) ∧
      ∀ read, readFile q 5 read = some (.error .invalidHandle)) ∧
    (∀ read, readFile ⟨SlotList.new, some PSP.reset⟩ 0 read = some (.error .readFault)) := by
  refine ⟨fun calls => runRepresents calls, ?_, fun p psp file hasPsp => openFileNoMoreFiles hasPsp file,
    fun p psp read hasPsp => readFileEndPanics hasPsp read, ?_, ?_, ?_, fun read => rfl⟩
  · intro p psp opened index hasPsp ok
    obtain ⟨file, -, found, -⟩ := openFileIntoEmpty hasPsp ok
    exact (findEmptyFileHandleSome found).1
  · intro p psp file q index read hasPsp ok at255
    rw [readFileStored hasPsp ok, at255]
    rfl
  · intro p psp file q index read hasPsp ok at256
    rw [readFileStored hasPsp ok, at256]
    rfl
  · generalize heldDef : (⟨List.replicate 255 (some ⟨0, 0⟩)⟩ : SlotList OpenFile) = held
    have length : held.slots.length = 255 := by rw [← heldDef, List.length_replicate]
    have full : ∀ j < held.slots.length, (held.get j).isSome := by
      intro j inside
      rw [length] at inside
      rw [← heldDef, SlotList.getEq, List.getElem?_replicate, if_pos inside]
      rfl
    have handle : (DosProcess.openFile ⟨held, some PSP.reset⟩ ⟨1, 0⟩).2 = 255 := by
      simp only [DosProcess.openFile, SlotList.insertFull _ _ full, length]
      rfl
    have found : PSP.reset.findEmptyFileHandle = some 5 := by decide
    obtain ⟨q, ok⟩ : ∃ q, openFile ⟨held, some PSP.reset⟩ (.ok ⟨1, 0⟩) = (q, .ok 5) :=
      ⟨_, by rw [@openFileOk _ PSP.reset rfl, found]⟩
    refine ⟨q, ok, fun read => ?_⟩
    have stored := @readFileStored _ PSP.reset rfl _ _ _ ok read
    rw [handle] at stored
    exact stored

end ImmDosNx.Dos
