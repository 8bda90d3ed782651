import Mathlib.Data.List.Basic

/-! Paths within a drive (`files/path.rs`). `Path::new` trims the separators at
both ends, `add` applies one component and `resolve` applies a local path to a
working directory. Strings are lists of characters, and `str::split` is
`List.splitOn`, which keeps empty pieces as Rust does. `canonical` is what
resolution is meant to give: the components with empty and `.` ones dropped and
`..` taking back the one before it, joined by single separators. -/
namespace ImmDosNx.Files

def separator : Char := '\\'

def trimStartMatches (s : List Char) (c : Char) : List Char := s.dropWhile (· == c)

def trimEndMatches (s : List Char) (c : Char) : List Char := (s.reverse.dropWhile (· == c)).reverse

structure Path where
  raw : List Char
  deriving DecidableEq, Repr

namespace Path

def new (raw : List Char) : Path := ⟨trimStartMatches (trimEndMatches raw separator) separator⟩

/-- The loop of `remove_last` over `char_indices`, keeping the index of the last separator. -/
def lastSeparatorFrom : List Char → Nat → Option Nat → Option Nat
  | [], _, last => last
  | ch :: rest, index, last => lastSeparatorFrom rest (index + 1) (if ch == separator then some index else last)

def removeLast (p : Path) : Path :=
  match lastSeparatorFrom p.raw 0 none with
  | some index => ⟨p.raw.take index⟩
  | none => ⟨p.raw.take 0⟩

def add (p : Path) (sub : List Char) : Path :=
  if sub = ['.'] then p
  else if sub = ['.', '.'] then p.removeLast
  else ⟨(if p.raw.isEmpty then p.raw else p.raw ++ [separator]) ++ sub⟩

def resolve (cwd localPath : List Char) : Path :=
  if localPath.head? = some separator then new (trimStartMatches localPath separator)
  else (localPath.splitOn separator).foldl add (new cwd)

end Path

/-! ### What resolution is for -/

def Proper (component : List Char) : Prop :=
  component ≠ [] ∧ component ≠ ['.'] ∧ component ≠ ['.', '.'] ∧ separator ∉ component

instance : DecidablePred Proper := fun _ => inferInstanceAs (Decidable (_ ∧ _ ∧ _ ∧ _))

def push (stack : List (List Char)) (component : List Char) : List (List Char) :=
  if component = [] ∨ component = ['.'] then stack
  else if component = ['.', '.'] then stack.dropLast
  else stack ++ [component]

def canonicalComponents (cwd localPath : List Char) : List (List Char) :=
  let base := if localPath.head? = some separator then [] else cwd.splitOn separator
  (base ++ localPath.splitOn separator).foldl push []

def canonical (cwd localPath : List Char) : List Char := [separator].intercalate (canonicalComponents cwd localPath)

/-! ### Splitting and joining -/

theorem notMemSplitOn (c : Char) : ∀ (s piece : List Char), piece ∈ s.splitOn c → c ∉ piece
  | [], piece, mem => by
    rw [List.splitOn_nil, List.mem_singleton] at mem
    rw [mem]
    exact List.not_mem_nil
  | x :: xs, piece, mem => by
    rw [List.splitOn_cons_eq_if_modifyHead] at mem
    split at mem
    · rcases List.mem_cons.mp mem with rfl | later
      · exact List.not_mem_nil
      · exact notMemSplitOn c xs piece later
    · next different =>
      obtain ⟨first, rest, split⟩ := List.exists_cons_of_ne_nil (List.splitOn_ne_nil c xs)
      rw [split, List.modifyHead_cons] at mem
      rcases List.mem_cons.mp mem with rfl | later
      · intro inside
        rcases List.mem_cons.mp inside with same | deeper
        · exact different (by rw [same]; exact beq_self_eq_true x)
        · exact notMemSplitOn c xs first (split ▸ List.mem_cons_self) deeper
      · exact notMemSplitOn c xs piece (split ▸ List.mem_cons_of_mem first later)

theorem intercalateConcat (sep : List Char) {ls : List (List Char)} (c : List Char) (nonempty : ls ≠ []) :
    sep.intercalate (ls ++ [c]) = sep.intercalate ls ++ sep ++ c := by
  induction ls with
  | nil => exact absurd rfl nonempty
  | cons first rest ih =>
    cases rest with
    | nil => simp
    | cons second more =>
      rw [List.cons_append, List.cons_append, List.intercalate_cons_cons, ← List.cons_append,
        ih (List.cons_ne_nil _ _), List.intercalate_cons_cons]
      simp

theorem headIntercalate (sep : List Char) {first : List Char} (rest : List (List Char)) (nonempty : first ≠ []) :
    (sep.intercalate (first :: rest)).head? = first.head? := by
  cases rest with
  | nil => simp
  | cons second more => rw [List.intercalate_cons_cons, List.append_assoc, List.head?_append_of_ne_nil _ nonempty]

theorem lastIntercalate (sep : List Char) (ls : List (List Char)) {last : List Char} (nonempty : last ≠ []) :
    (sep.intercalate (ls ++ [last])).getLast? = last.getLast? := by
  by_cases empty : ls = []
  · simp [empty]
  · rw [intercalateConcat sep last empty, List.getLast?_append_of_ne_nil _ nonempty]

/-! ### remove_last -/

theorem lastSeparatorFromOutside {s : List Char} (outside : separator ∉ s) (index : Nat) (last : Option Nat) :
    Path.lastSeparatorFrom s index last = last := by
  induction s generalizing index last with
  | nil => rfl
  | cons ch rest ih =>
    have different : (ch == separator) = false := beq_eq_false_iff_ne.mpr fun same => outside (same ▸ List.mem_cons_self)
    rw [Path.lastSeparatorFrom, different, if_neg Bool.false_ne_true]
    exact ih (fun inside => outside (List.mem_cons_of_mem ch inside)) _ _

theorem lastSeparatorFromAppend (a b : List Char) (index : Nat) (last : Option Nat) :
    Path.lastSeparatorFrom (a ++ b) index last =
      Path.lastSeparatorFrom b (index + a.length) (Path.lastSeparatorFrom a index last) := by
  induction a generalizing index last with
  | nil => rfl
  | cons ch rest ih =>
    rw [List.cons_append, Path.lastSeparatorFrom, ih, Path.lastSeparatorFrom, List.length_cons, Nat.add_assoc,
      Nat.add_comm 1]

theorem removeLastIntercalate {stack : List (List Char)} (outside : ∀ c ∈ stack, separator ∉ c) :
    (Path.mk ([separator].intercalate stack)).removeLast = ⟨[separator].intercalate stack.dropLast⟩ := by
  rcases List.eq_nil_or_concat stack with rfl | ⟨ls, last, rfl⟩
  · rfl
  · rw [List.concat_eq_append] at outside ⊢
    have lastOutside := outside last (List.mem_append_right ls (List.mem_singleton_self last))
    rw [List.dropLast_concat]
    by_cases empty : ls = []
    · subst empty
      simp only [Path.removeLast, List.nil_append, List.intercalate_singleton,
        lastSeparatorFromOutside lastOutside, List.intercalate_nil]
      rfl
    · rw [intercalateConcat _ last empty]
      simp only [Path.removeLast, lastSeparatorFromAppend]
      rw [lastSeparatorFromOutside lastOutside]
      simp [Path.lastSeparatorFrom]

/-! ### The stack of components -/

theorem properOutside {component : List Char} (proper : Proper component) : separator ∉ component := proper.2.2.2

theorem pushProper {stack : List (List Char)} {component : List Char} (proper : ∀ c ∈ stack, Proper c)
    (outside : separator ∉ component) : ∀ c ∈ push stack component, Proper c := by
  intro c mem
  unfold push at mem
  split at mem
  · exact proper c mem
  · split at mem
    · exact proper c (List.dropLast_subset _ mem)
    · next skipped up =>
      rcases List.mem_append.mp mem with old | new
      · exact proper c old
      · rw [List.mem_singleton.mp new]
        exact ⟨fun e => skipped (.inl e), fun e => skipped (.inr e), up, outside⟩

theorem foldPushProper {stack : List (List Char)} (proper : ∀ c ∈ stack, Proper c) (sections : List (List Char))
    (outside : ∀ s ∈ sections, separator ∉ s) : ∀ c ∈ sections.foldl push stack, Proper c := by
  induction sections generalizing stack with
  | nil => exact proper
  | cons first rest ih =>
    exact ih (pushProper proper (outside first List.mem_cons_self)) fun s mem => outside s (List.mem_cons_of_mem _ mem)

theorem foldPushKeeps (stack : List (List Char)) {comps : List (List Char)} (proper : ∀ c ∈ comps, Proper c) :
    comps.foldl push stack = stack ++ comps := by
  induction comps generalizing stack with
  | nil => simp
  | cons c rest ih =>
    obtain ⟨nonempty, notDot, notUp, -⟩ := proper c List.mem_cons_self
    rw [List.foldl_cons, ih _ fun d mem => proper d (List.mem_cons_of_mem _ mem)]
    simp [push, nonempty, notDot, notUp]

structure Shows (p : Path) (stack : List (List Char)) : Prop where
  joined : p = ⟨[separator].intercalate stack⟩
  proper : ∀ c ∈ stack, Proper c

theorem isEmptyIntercalate {stack : List (List Char)} (proper : ∀ c ∈ stack, Proper c) :
    ([separator].intercalate stack).isEmpty = stack.isEmpty := by
  cases stack with
  | nil => rfl
  | cons c rest =>
    have nonempty := (proper c List.mem_cons_self).1
    have first := headIntercalate [separator] rest nonempty
    obtain ⟨x, xs, rfl⟩ := List.exists_cons_of_ne_nil nonempty
    cases joined : [separator].intercalate ((x :: xs) :: rest) with
    | nil => rw [joined] at first; nomatch first
    | cons y ys => rfl

theorem showsAdd {p : Path} {stack : List (List Char)} {component : List Char} (shows : Shows p stack)
    (nonempty : component ≠ []) (outside : separator ∉ component) :
    Shows (p.add component) (push stack component) := by
  obtain ⟨rfl, proper⟩ := shows
  refine ⟨?_, pushProper proper outside⟩
  by_cases dot : component = ['.']
  · simp [Path.add, push, dot]
  · by_cases up : component = ['.', '.']
    · simp only [Path.add, push, up, List.cons.injEq, and_false, if_false, or_false, reduceCtorEq, if_true]
      exact removeLastIntercalate fun c mem => properOutside (proper c mem)
    · simp only [Path.add, push, dot, up, nonempty, or_self, if_false, Path.mk.injEq,
        isEmptyIntercalate proper]
      by_cases empty : stack = []
      · simp [empty]
      · rw [intercalateConcat _ _ empty]
        simp [empty]

theorem showsFold {p : Path} {stack : List (List Char)} (shows : Shows p stack) (sections : List (List Char))
    (good : ∀ s ∈ sections, s ≠ [] ∧ separator ∉ s) : Shows (sections.foldl Path.add p) (sections.foldl push stack) := by
  induction sections generalizing p stack with
  | nil => exact shows
  | cons first rest ih =>
    have firstGood := good first List.mem_cons_self
    exact ih (showsAdd shows firstGood.1 firstGood.2) fun s mem => good s (List.mem_cons_of_mem _ mem)

/-! ### A canonical working directory -/

theorem dropWhileKeeps {l : List Char} (first : l.head? ≠ some separator) : l.dropWhile (· == separator) = l := by
  cases l with
  | nil => rfl
  | cons x xs =>
    have different : x ≠ separator := fun same => first (by rw [same]; rfl)
    exact List.dropWhile_cons_of_neg (by simpa using different)

theorem headNotSeparator {comps : List (List Char)} (proper : ∀ c ∈ comps, Proper c) :
    ([separator].intercalate comps).head? ≠ some separator := by
  cases comps with
  | nil => nofun
  | cons c rest =>
    obtain ⟨nonempty, -, -, outside⟩ := proper c List.mem_cons_self
    rw [headIntercalate _ rest nonempty]
    exact fun head => outside (List.mem_of_mem_head? head)

theorem lastNotSeparator {comps : List (List Char)} (proper : ∀ c ∈ comps, Proper c) :
    ([separator].intercalate comps).getLast? ≠ some separator := by
  rcases List.eq_nil_or_concat comps with rfl | ⟨ls, last, rfl⟩
  · nofun
  · rw [List.concat_eq_append] at proper ⊢
    obtain ⟨nonempty, -, -, outside⟩ := proper last (List.mem_append_right ls (List.mem_singleton_self last))
    rw [lastIntercalate _ ls nonempty]
    exact fun final => outside (List.mem_of_getLast? final)

theorem newIntercalate {comps : List (List Char)} (proper : ∀ c ∈ comps, Proper c) :
    Path.new ([separator].intercalate comps) = ⟨[separator].intercalate comps⟩ := by
  have trimmedEnd : trimEndMatches ([separator].intercalate comps) separator = [separator].intercalate comps := by
    unfold trimEndMatches
    rw [dropWhileKeeps (by rw [List.head?_reverse]; exact lastNotSeparator proper), List.reverse_reverse]
  rw [Path.new, trimmedEnd, trimStartMatches, dropWhileKeeps (headNotSeparator proper)]

theorem baseComponents {comps : List (List Char)} (proper : ∀ c ∈ comps, Proper c) :
    (([separator].intercalate comps).splitOn separator).foldl push [] = comps := by
  by_cases empty : comps = []
  · subst empty
    rfl
  · rw [List.splitOn_intercalate separator (fun c mem => properOutside (proper c mem)) empty, foldPushKeeps [] proper,
      List.nil_append]

/-! ### Path::resolve against the reference -/

theorem resolveRelative {comps : List (List Char)} (proper : ∀ c ∈ comps, Proper c) {localPath : List Char}
    (relative : localPath.head? ≠ some separator) (sections : ∀ s ∈ localPath.splitOn separator, s ≠ []) :
    (Path.resolve ([separator].intercalate comps) localPath).raw = canonical ([separator].intercalate comps) localPath := by
  unfold Path.resolve canonical canonicalComponents
  rw [if_neg relative, if_neg relative, List.foldl_append, baseComponents proper]
  have shows := showsFold ⟨newIntercalate proper, proper⟩ (localPath.splitOn separator)
    fun s mem => ⟨sections s mem, notMemSplitOn separator localPath s mem⟩
  rw [shows.joined]

theorem resolveAbsolute (cwd : List Char) {comps : List (List Char)} (proper : ∀ c ∈ comps, Proper c) :
    (Path.resolve cwd (separator :: [separator].intercalate comps)).raw =
      canonical cwd (separator :: [separator].intercalate comps) := by
  have split : (separator :: [separator].intercalate comps).splitOn separator =
      [] :: ([separator].intercalate comps).splitOn separator := by
    rw [List.splitOn_cons_eq_if_modifyHead, if_pos (beq_self_eq_true separator)]
  have start : (separator :: [separator].intercalate comps).head? = some separator := rfl
  unfold Path.resolve canonical canonicalComponents
  rw [if_pos start, if_pos start]
  dsimp only
  rw [List.nil_append, split, List.foldl_cons]
  have trimmed : trimStartMatches (separator :: [separator].intercalate comps) separator =
      [separator].intercalate comps := by
    unfold trimStartMatches
    rw [List.dropWhile_cons, if_pos (beq_self_eq_true separator)]
    exact dropWhileKeeps (headNotSeparator proper)
  rw [trimmed, newIntercalate proper, show push [] [] = [] from rfl, baseComponents proper]

theorem canonicalComponentsProper (cwd localPath : List Char) : ∀ c ∈ canonicalComponents cwd localPath, Proper c := by
  unfold canonicalComponents
  refine foldPushProper (fun _ mem => absurd mem List.not_mem_nil) _ fun s mem => ?_
  rcases List.mem_append.mp mem with base | later
  · split at base
    · exact absurd base List.not_mem_nil
    · exact notMemSplitOn separator cwd s base
  · exact notMemSplitOn separator localPath s later

theorem canonicalShape (cwd localPath : List Char) :
    (canonical cwd localPath).head? ≠ some separator ∧ (canonical cwd localPath).getLast? ≠ some separator ∧
      (canonical cwd localPath = [] ∨ ∀ c ∈ (canonical cwd localPath).splitOn separator, Proper c) := by
  have proper := canonicalComponentsProper cwd localPath
  refine ⟨headNotSeparator proper, lastNotSeparator proper, ?_⟩
  by_cases empty : canonicalComponents cwd localPath = []
  · left
    simp [canonical, empty]
  · right
    unfold canonical
    rw [List.splitOn_intercalate separator (fun c mem => properOutside (proper c mem)) empty]
    exact proper

theorem resolveSkipsNormalization :
    (∀ comps : List (List Char), (∀ c ∈ comps, Proper c) → ∀ localPath, localPath.head? ≠ some separator →
      (∀ s ∈ localPath.splitOn separator, s ≠ []) →
        (Path.resolve ([separator].intercalate comps) localPath).raw =
          canonical ([separator].intercalate comps) localPath) ∧
    (∀ cwd (comps : List (List Char)), (∀ c ∈ comps, Proper c) →
      (Path.resolve cwd (separator :: [separator].intercalate comps)).raw =
        canonical cwd (separator :: [separator].intercalate comps)) ∧
    (∀ cwd localPath, (canonical cwd localPath).head? ≠ some separator ∧
      (canonical cwd localPath).getLast? ≠ some separator ∧
      (canonical cwd localPath = [] ∨ ∀ c ∈ (canonical cwd localPath).splitOn separator, Proper c)) ∧
    ((Path.resolve [] "\\a\\..\\b".toList).raw = "a\\..\\b".toList ∧ canonical [] "\\a\\..\\b".toList = ['b']) ∧
    ((Path.resolve [] "sub\\".toList).raw = "sub\\".toList ∧ canonical [] "sub\\".toList = "sub".toList) ∧
    ((Path.resolve "a\\..\\b".toList ['c']).raw = "a\\..\\b\\c".toList ∧
      canonical "a\\..\\b".toList ['c'] = "b\\c".toList) :=
  ⟨fun _ proper _ relative sections => resolveRelative proper relative sections,
    fun cwd _ proper => resolveAbsolute cwd proper, canonicalShape, by decide, by decide, by decide⟩

end ImmDosNx.Files
