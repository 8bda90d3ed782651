import ImmDosNx.Tty.Parser

/-! A virtual terminal (`vterm/vterm.rs`, `vterm/memory.rs`): the ANSI parser in
front of a text mode writer, and the backup pages that keep its video memory while
another terminal is on screen. Memory is the kernel's address space byte by byte,
and the writer sees it from its buffer pointer: VGA text memory at `0xc00b8000`
while the terminal is active, its backup page otherwise. The TTY index and the
echo, raw and DOS flags are left out; only `handle_input` reads them. -/
namespace ImmDosNx.Vterm

open Vga Tty

def view (memory : Nat → UInt8) (base : UInt32) : Nat → UInt8 := fun offset => memory (base.toNat + offset)

def store (memory : Nat → UInt8) (base : UInt32) (writes : List Write) : Nat → UInt8 :=
  writes.foldl (fun memory w => Function.update memory (base.toNat + w.offset) w.value) memory

/-- Here `copy_from_slice` of one page. -/
def copyPage (memory : Nat → UInt8) (dest src : UInt32) : Nat → UInt8 :=
  fun a => if dest.toNat ≤ a ∧ a < dest.toNat + 0x1000 then memory (src.toNat + (a - dest.toNat)) else memory a

structure MemoryBackup where
  physicalAddress : UInt32
  bufferFrame : UInt32
  mappedTo : UInt32
  deriving DecidableEq, Repr

namespace MemoryBackup

def getKernelLocation (b : MemoryBackup) : UInt32 := b.physicalAddress + 0xc0000000

def copyToBuffer (b : MemoryBackup) (memory : Nat → UInt8) : Nat → UInt8 := copyPage memory b.mappedTo b.getKernelLocation

def copyFromBuffer (b : MemoryBackup) (memory : Nat → UInt8) : Nat → UInt8 :=
  copyPage memory b.getKernelLocation b.mappedTo

end MemoryBackup

structure VTerm where
  videoMode : UInt8
  memoryBackups : List (Option MemoryBackup)
  textModeState : TextMode
  ansiParser : Parser
  deriving DecidableEq, Repr

namespace VTerm

/-- Here `MemoryBackup::allocate` hands out a frame and the kernel page it is mapped to. -/
def withVideoMode (mode : UInt8) (bufferFrame mappedTo : UInt32) : VTerm :=
  let backup : MemoryBackup := ⟨0xb8000, bufferFrame, mappedTo⟩
  ⟨mode, (List.replicate 32 none).set ((0xb8000 - 0xa0000) / 0x1000) (some backup), TextMode.new backup.mappedTo,
    Parser.new⟩

def getMemoryBackup (v : VTerm) (address : UInt32) : Option MemoryBackup :=
  if address < 0xa0000 then none
  else if address ≥ 0xc0000 then none
  else
    match v.memoryBackups[((address - 0xa0000) / 0x1000).toNat]? with
    | some backup => backup
    | none => none

def makeActive (v : VTerm) (memory : Nat → UInt8) : VTerm × (Nat → UInt8) :=
  let memory := v.memoryBackups.foldl (fun memory backup =>
    match backup with
    | some b => b.copyFromBuffer memory
    | none => memory) memory
  ({ v with textModeState := (v.textModeState.setBufferPointer 0xc00b8000).1 }, memory)

def makeInitial (v : VTerm) : VTerm := { v with textModeState := (v.textModeState.setBufferPointer 0xc00b8000).1 }

def makeInactive (v : VTerm) (memory : Nat → UInt8) : VTerm × (Nat → UInt8) :=
  let memory := v.memoryBackups.foldl (fun memory backup =>
    match backup with
    | some b => b.copyToBuffer memory
    | none => memory) memory
  match v.getMemoryBackup 0xb8000 with
  | some backup => ({ v with textModeState := (v.textModeState.setBufferPointer backup.mappedTo).1 }, memory)
  | none => (v, memory)

def textOp (v : VTerm) (memory : Nat → UInt8) (op : Op) : VTerm × (Nat → UInt8) :=
  let base := v.textModeState.basePointer
  let (t, writes) := v.textModeState.perform (view memory base) op
  ({ v with textModeState := t }, store memory base writes)

def writeCharacter (v : VTerm) (memory : Nat → UInt8) (ch : UInt8) : VTerm × (Nat → UInt8) :=
  if ch = 0x0a then v.textOp memory (.writeByte ch)
  else if ch < 0x20 then
    let (v, memory) := v.textOp memory (.writeByte 0x5e)
    v.textOp memory (.writeByte (ch + 0x40))
  else v.textOp memory (.writeByte ch)

/-- The arm `SetPosition(col, row)` names the parser's row `col` and its column `row`. -/
def performAction (v : VTerm) (memory : Nat → UInt8) : TTYAction → VTerm × (Nat → UInt8)
  | .print ch => v.writeCharacter memory ch
  | .newLine => v.textOp memory .newline
  | .moveCursor dx dy => v.textOp memory (.moveCursorRelative dx dy)
  | .setColumn _ => (v, memory)
  | .setPosition col row => v.textOp memory (.moveCursor col.toUInt8 row.toUInt8)
  | .clearScreen => v.textOp memory .clearScreen
  | .clearToBeginning => v.textOp memory .clearScreenToBeginning
  | .clearToEnd => v.textOp memory .clearScreenToEnd
  | .clearRow => v.textOp memory .clearRow
  | .clearRowToBeginning => v.textOp memory .clearRowToBeginning
  | .clearRowToEnd => v.textOp memory .clearRowToEnd
  | .nextLineStart _ => (v, memory)
  | .prevLineStart _ => (v, memory)
  | .scrollUp lines => v.textOp memory (.scroll lines.toUInt8)
  | .scrollDown _ => (v, memory)
  | .resetColors => ({ v with textModeState := v.textModeState.resetColors }, memory)
  | .setFgColor fg => ({ v with textModeState := v.textModeState.setFgColor fg }, memory)
  | .setBgColor bg => ({ v with textModeState := v.textModeState.setBgColor bg }, memory)
  | .none => (v, memory)
  | .backspace => (v, memory)
  | .delete => (v, memory)

/-- One turn of the loop of `send_characters`. -/
def sendCharacter (v : VTerm) (memory : Nat → UInt8) (ch : UInt8) : VTerm × (Nat → UInt8) :=
  let (parser, action) := v.ansiParser.processCharacter ch
  { v with ansiParser := parser }.performAction memory action

def sendCharacters (v : VTerm) (memory : Nat → UInt8) : List UInt8 → VTerm × (Nat → UInt8)
  | [] => (v, memory)
  | ch :: rest =>
    let (v, memory) := v.sendCharacter memory ch
    v.sendCharacters memory rest

def scroll (v : VTerm) (memory : Nat → UInt8) (delta : UInt32) : VTerm × (Nat → UInt8) :=
  v.textOp memory (.scroll delta.toUInt8)

theorem textOpState (v : VTerm) (memory : Nat → UInt8) (op : Op) :
    (v.textOp memory op).1 = { v with textModeState := (v.textModeState.perform (view memory v.textModeState.basePointer) op).1 } :=
  rfl

theorem writeCharacterEq (v : VTerm) (memory : Nat → UInt8) (ch : UInt8) :
    v.writeCharacter memory ch =
      if ch = 0x0a then v.textOp memory (.writeByte ch)
      else if ch < 0x20 then
        (v.textOp memory (.writeByte 0x5e)).1.textOp (v.textOp memory (.writeByte 0x5e)).2 (.writeByte (ch + 0x40))
      else v.textOp memory (.writeByte ch) :=
  rfl

theorem writeCharacterParser (v : VTerm) (memory : Nat → UInt8) (ch : UInt8) :
    (v.writeCharacter memory ch).1.ansiParser = v.ansiParser := by
  unfold writeCharacter
  split
  · rfl
  · split <;> rfl

theorem performActionParser (v : VTerm) (memory : Nat → UInt8) (action : TTYAction) :
    (v.performAction memory action).1.ansiParser = v.ansiParser := by
  cases action with
  | print ch => exact writeCharacterParser v memory ch
  | _ => rfl

end VTerm

end ImmDosNx.Vterm
