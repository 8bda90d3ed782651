import ImmDosNx.Hardware.Vga.TextMode

/-! The ANSI parser of the terminals (`tty/parser.rs`): a three-state machine that
turns each byte of output into a `TTYAction`. A CSI sequence `ESC [` collects its
decimal parameters in `u32` slots, a new slot at each `;`, and its final byte picks
the action. The kernel is 32-bit, so `usize` is `u32` and the cast of a parameter
to `isize` is a reinterpretation as `Int32`. -/
namespace ImmDosNx.Tty

open Vga

inductive ParseState
  | ready
  | escapeStart
  | csi
  deriving DecidableEq, Repr

inductive TTYAction
  | none
  | print (ch : UInt8)
  | newLine
  | backspace
  | delete
  | moveCursor (dx dy : Int32)
  | setColumn (col : UInt32)
  | setPosition (row col : UInt32)
  | clearScreen
  | clearToBeginning
  | clearToEnd
  | clearRow
  | clearRowToBeginning
  | clearRowToEnd
  | nextLineStart (lines : UInt32)
  | prevLineStart (lines : UInt32)
  | scrollUp (lines : UInt32)
  | scrollDown (lines : UInt32)
  | resetColors
  | setFgColor (color : Color)
  | setBgColor (color : Color)
  deriving DecidableEq, Repr

structure Parser where
  state : ParseState
  csiArgs : List (Option UInt32)
  deriving DecidableEq, Repr

def sgrAction (modifier : UInt32) : TTYAction :=
  match modifier.toNat with
  | 0 => .resetColors
  | 30 => .setFgColor .black
  | 31 => .setFgColor .red
  | 32 => .setFgColor .green
  | 33 => .setFgColor .brown
  | 34 => .setFgColor .blue
  | 35 => .setFgColor .magenta
  | 36 => .setFgColor .cyan
  | 37 => .setFgColor .lightGrey
  | 39 => .setFgColor .lightGrey
  | 40 => .setBgColor .black
  | 41 => .setBgColor .red
  | 42 => .setBgColor .green
  | 43 => .setBgColor .brown
  | 44 => .setBgColor .blue
  | 45 => .setBgColor .magenta
  | 46 => .setBgColor .cyan
  | 47 => .setBgColor .lightGrey
  | 49 => .setBgColor .black
  | 90 => .setFgColor .darkGrey
  | 91 => .setFgColor .lightRed
  | 92 => .setFgColor .lightGreen
  | 93 => .setFgColor .lightBrown
  | 94 => .setFgColor .lightBlue
  | 95 => .setFgColor .lightMagenta
  | 96 => .setFgColor .lightCyan
  | 97 => .setFgColor .white
  | 100 => .setBgColor .darkGrey
  | 101 => .setBgColor .lightRed
  | 102 => .setBgColor .lightGreen
  | 103 => .setBgColor .lightBrown
  | 104 => .setBgColor .lightBlue
  | 105 => .setBgColor .lightMagenta
  | 106 => .setBgColor .lightCyan
  | 107 => .setBgColor .white
  | _ => .none

namespace Parser

def new : Parser := ⟨.ready, []⟩

def getCsiArg (p : Parser) (index : Nat) (fallback : UInt32) : UInt32 :=
  match p.csiArgs[index]? with
  | some (some val) => val
  | some none => fallback
  | none => fallback

def csiFinal (p : Parser) (ch : UInt8) : TTYAction :=
  match ch with
  | 0x41 => .moveCursor 0 ((p.getCsiArg 0 1).toInt32 * -1)
  | 0x42 => .moveCursor 0 (p.getCsiArg 0 1).toInt32
  | 0x43 => .moveCursor (p.getCsiArg 0 1).toInt32 0
  | 0x44 => .moveCursor ((p.getCsiArg 0 1).toInt32 * -1) 0
  | 0x45 => .nextLineStart (p.getCsiArg 0 1)
  | 0x46 => .prevLineStart (p.getCsiArg 0 1)
  | 0x47 => .setColumn (p.getCsiArg 0 1)
  | 0x48 => .setPosition (p.getCsiArg 0 1) (p.getCsiArg 1 1)
  | 0x4a =>
    match (p.getCsiArg 0 0).toNat with
    | 0 => .clearToEnd
    | 1 => .clearToBeginning
    | 2 | 3 => .clearScreen
    | _ => .none
  | 0x4b =>
    match (p.getCsiArg 0 0).toNat with
    | 0 => .clearRowToEnd
    | 1 => .clearRowToBeginning
    | 2 | 3 => .clearRow
    | _ => .none
  | 0x53 => .scrollUp (p.getCsiArg 0 1)
  | 0x54 => .scrollDown (p.getCsiArg 0 1)
  | 0x6d => sgrAction (p.getCsiArg 0 0)
  | _ => .none

def pushDigit (args : List (Option UInt32)) (digit : UInt32) : List (Option UInt32) :=
  args.modify (args.length - 1) fun slot => some ((match slot with | some value => value * 10 | none => 0) + digit)

def csiCharacter (p : Parser) (ch : UInt8) : Parser × TTYAction × Bool :=
  if 0x30 ≤ ch ∧ ch ≤ 0x39 then ({ p with csiArgs := pushDigit p.csiArgs (ch - 48).toUInt32 }, .none, false)
  else if ch = 0x3b then ({ p with csiArgs := p.csiArgs ++ [none] }, .none, false)
  else (p, p.csiFinal ch, true)

def processCharacter (p : Parser) (ch : UInt8) : Parser × TTYAction :=
  match p.state with
  | .ready =>
    match ch with
    | 0x08 => (p, .backspace)
    | 0x0a => (p, .newLine)
    | 0x1b => ({ p with state := .escapeStart }, .none)
    | 0x7f => (p, .delete)
    | _ => (p, .print ch)
  | .escapeStart =>
    match ch with
    | 0x5b => (⟨.csi, [none]⟩, .none)
    | _ => ({ p with state := .ready }, .none)
  | .csi =>
    let (p, action, done) := p.csiCharacter ch
    (if done then { p with state := .ready } else p, action)

end Parser

end ImmDosNx.Tty
