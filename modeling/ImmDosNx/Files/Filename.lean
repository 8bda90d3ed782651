import Mathlib.Data.List.Basic
import Mathlib.Data.List.GetD

/-! The DOS 8.3 form of a file name (`files/filename.rs`), as directory listings
report it: up to eight bytes of the name before its dot and up to three of the
extension after it, each padded with spaces. -/
namespace ImmDosNx.Files

def dot : UInt8 := 0x2e

def space : UInt8 := 0x20

def copyFilenameToDosStyle (filename : List UInt8) : Option (List UInt8 × List UInt8) :=
  let name := (filename.take 8).takeWhile (· != dot)
  match (filename.drop name.length).findIdx? (· == dot) with
  | none => none
  | some offset =>
    let ext := (filename.drop (name.length + offset + 1)).take 3
    some (name ++ List.replicate (8 - name.length) space, ext ++ List.replicate (3 - ext.length) space)

example : copyFilenameToDosStyle [0x41, 0x2e, 0x42] =
    some ([0x41, 0x20, 0x20, 0x20, 0x20, 0x20, 0x20, 0x20], [0x42, 0x20, 0x20]) := by decide

theorem copyFilenameIsSome (filename : List UInt8) :
    (copyFilenameToDosStyle filename).isSome ↔ dot ∈ filename := by
  simp only [copyFilenameToDosStyle]
  generalize nameDef : (filename.take 8).takeWhile (· != dot) = name
  have prefixOf : name <+: filename := nameDef ▸ (List.takeWhile_prefix _).trans (List.take_prefix 8 filename)
  have noDot : dot ∉ name := fun inName => by
    rw [← nameDef] at inName
    simpa using List.all_eq_true.mp List.all_takeWhile dot inName
  have inRest : dot ∈ filename ↔ dot ∈ filename.drop name.length := by
    constructor
    · intro mem
      rw [← List.take_append_drop name.length filename, ← List.prefix_iff_eq_take.mp prefixOf,
        List.mem_append] at mem
      exact mem.resolve_left noDot
    · exact List.mem_of_mem_drop
  rw [inRest]
  cases found : (filename.drop name.length).findIdx? (· == dot) with
  | none =>
    simp only [Option.isSome_none, Bool.false_eq_true, false_iff]
    intro mem
    simpa using List.findIdx?_eq_none_iff.mp found dot mem
  | some offset =>
    obtain ⟨inside, isDot, _⟩ := List.findIdx?_eq_some_iff_getElem.mp found
    have same : (filename.drop name.length)[offset] = dot := by simpa using isDot
    simp only [Option.isSome_some, true_iff]
    exact same ▸ List.getElem_mem inside

/-! ### The 8.3 form a listing reports -/

def dosName (filename : List UInt8) : List UInt8 :=
  let base := (filename.takeWhile (· != dot)).take 8
  base ++ List.replicate (8 - base.length) space

def dosExt (filename : List UInt8) : List UInt8 :=
  let ext := ((filename.dropWhile (· != dot)).drop 1).take 3
  ext ++ List.replicate (3 - ext.length) space

theorem firstDotSplit {filename : List UInt8} (hasDot : dot ∈ filename) :
    ∃ pre post, filename = pre ++ dot :: post ∧ ∀ b ∈ pre, (b != dot) = true := by
  have noDot : ∀ b ∈ filename.takeWhile (· != dot), (b != dot) = true := fun b inside =>
    List.all_eq_true.mp List.all_takeWhile b inside
  have rest : filename.dropWhile (· != dot) ≠ [] := fun empty => by
    have whole := @List.takeWhile_append_dropWhile UInt8 (· != dot) filename
    rw [empty, List.append_nil] at whole
    rw [← whole] at hasDot
    simpa using noDot dot hasDot
  obtain ⟨x, post, split⟩ := List.exists_cons_of_ne_nil rest
  have isDot : x = dot := by simpa [split] using List.head_dropWhile_not (· != dot) rest
  subst isDot
  refine ⟨filename.takeWhile (· != dot), post, ?_, noDot⟩
  rw [← split, List.takeWhile_append_dropWhile]

theorem copyFilenameSpec {filename : List UInt8} (hasDot : dot ∈ filename) :
    copyFilenameToDosStyle filename = some (dosName filename, dosExt filename) := by
  obtain ⟨pre, post, rfl, noDot⟩ := firstDotSplit hasDot
  have before : (pre ++ dot :: post).takeWhile (· != dot) = pre := by
    rw [List.takeWhile_append_of_pos noDot, List.takeWhile_cons_of_neg (by simp), List.append_nil]
  have after : (pre ++ dot :: post).dropWhile (· != dot) = dot :: post := by
    rw [List.dropWhile_append_of_pos noDot, List.dropWhile_cons_of_neg (by simp)]
  have name : ((pre ++ dot :: post).take 8).takeWhile (· != dot) = pre.take 8 := by
    rw [← List.take_takeWhile, before]
  have short : (pre.take 8).length ≤ pre.length := by
    rw [List.length_take]
    omega
  have found : ((pre ++ dot :: post).drop (pre.take 8).length).findIdx? (· == dot) =
      some (pre.length - (pre.take 8).length) := by
    rw [List.drop_append_of_le_length short, List.findIdx?_append]
    have none : (pre.drop (pre.take 8).length).findIdx? (· == dot) = none :=
      List.findIdx?_eq_none_iff.mpr fun b inside => by
        simpa using noDot b (List.mem_of_mem_drop inside)
    rw [none, List.findIdx?_cons, if_pos (beq_self_eq_true dot)]
    simp
  have ext : (pre ++ dot :: post).drop ((pre.take 8).length + (pre.length - (pre.take 8).length) + 1) = post := by
    rw [show (pre.take 8).length + (pre.length - (pre.take 8).length) + 1 = pre.length + 1 by omega,
      ← List.drop_drop, List.drop_left, List.drop_one, List.tail_cons]
  simp only [copyFilenameToDosStyle, name, found, ext, dosName, dosExt, before, after, List.drop_one, List.tail_cons]

def slash : UInt8 := 0x2f

def backslash : UInt8 := 0x5c

def getExtensionFrom (raw : List UInt8) : Nat → Option (List UInt8)
  | 0 => none
  | cur + 1 =>
    let ch := raw.getD cur 0
    if ch = slash ∨ ch = backslash then none
    else if ch = dot then
      if cur = raw.length - 1 then none else some (raw.drop (cur + 1))
    else getExtensionFrom raw cur

def getExtension (raw : List UInt8) : Option (List UInt8) := getExtensionFrom raw raw.length

theorem getExtensionFromSkip {raw : List UInt8} {low : Nat}
    (plain : ∀ i, low ≤ i → i < raw.length → raw.getD i 0 ≠ slash ∧ raw.getD i 0 ≠ backslash ∧ raw.getD i 0 ≠ dot) :
    ∀ cur, low ≤ cur → cur ≤ raw.length → getExtensionFrom raw cur = getExtensionFrom raw low := by
  intro cur
  induction cur with
  | zero => intro below _; rw [Nat.le_zero.mp below]
  | succ cur ih =>
    intro below within
    rcases Nat.eq_or_lt_of_le below with same | lower
    · rw [same]
    · obtain ⟨notSlash, notBackslash, notDot⟩ := plain cur (by omega) (by omega)
      simp only [getExtensionFrom, notSlash, notBackslash, notDot, or_self, if_false]
      exact ih (by omega) (by omega)

end ImmDosNx.Files
