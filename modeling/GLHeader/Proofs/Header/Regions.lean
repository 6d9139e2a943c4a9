import GLHeader.Header.Region
import GLHeader.Proofs.Text.Lines
import GLHeader.Proofs.Traversal
import Mathlib.Data.List.Basic

namespace GLHeader.Header

open GLHeader.Text

def guardLine? (before after line : String) : Option (Nat × String) := do
  let s ← line.toList.dropPrefix? ['#']
  let wording := s.dropWhile (· == ' ')
  let named ← wording.dropPrefix? before.toList
  let name ← named.dropSuffix? after.toList
  return (s.length - wording.length, .ofList name)

def opened? (line : String) : Option (Nat × String) := guardLine? "if defined (" ")" line

def closed? (line : String) : Option (Nat × String) := guardLine? "endif /* " " */" line

def IsInner (line : String) : Prop := opened? line = none ∧ closed? line = none

inductive Scan where
  | outside (finished : List Region)
  | inside (finished : List Region) (current : Region)

def Scan.step? : Scan → String → Option Scan
  | .outside finished, line =>
    (opened? line).map fun (depth, name) => .inside finished ⟨name, depth, []⟩
  | .inside finished current, line =>
    match opened? line, closed? line with
    | some _, _ => none
    | none, none => some (.inside finished { current with body := current.body ++ [line] })
    | none, some (depth, name) =>
      if depth = current.depth ∧ name = current.guardName then some (.outside (finished ++ [current]))
      else none

/-- The regions that some lines consist of. -/
def regions? (lines : List String) : Option (List Region) :=
  match lines.foldlM Scan.step? (.outside []) with
  | some (.outside finished) => some finished
  | _ => none

theorem dropWhile_replicate_space (depth : Nat) {s : List Char} (start : s.head? ≠ some ' ') :
    (List.replicate depth ' ' ++ s).dropWhile (· == ' ') = s := by
  rw [List.dropWhile_append_of_pos (by simp)]
  cases s with
  | nil => rfl
  | cons c rest =>
    have other : (c == ' ') = false := by simpa using start
    simp [other]

theorem toList_directive (depth : Nat) (wording : String) :
    (Region.directive depth wording).toList = '#' :: (List.replicate depth ' ' ++ wording.toList) := by
  simp [Region.directive]

theorem guardLine?_directive (before after : String) (depth : Nat) {wording : String}
    (start : wording.toList.head? ≠ some ' ') :
    guardLine? before after (Region.directive depth wording) =
      ((wording.toList.dropPrefix? before.toList).bind (List.dropSuffix? · after.toList)).map
        fun name => (depth, .ofList name) := by
  have length : depth + wording.length - wording.length = depth := by omega
  have shown : (Region.directive depth wording).toList.dropPrefix? ['#'] =
      some (List.replicate depth ' ' ++ wording.toList) := by
    have mark : (['#'] == ['#']) = true := rfl
    rw [toList_directive]
    exact List.dropPrefix?_append_of_beq _ mark
  simp only [guardLine?, shown, Option.bind_eq_bind, Option.bind_some,
    dropWhile_replicate_space depth start, List.length_append, List.length_replicate, String.length_toList,
    length]
  cases wording.toList.dropPrefix? before.toList with
  | none => rfl
  | some named => exact Option.map_eq_bind.symm

theorem guardLine?_written {before : String} (after name : String) (depth : Nat)
    (start : before.toList.head?.any (· != ' ')) :
    guardLine? before after (Region.directive depth (before ++ name ++ after)) = some (depth, name) := by
  have shown : (before ++ name ++ after).toList.head? ≠ some ' ' := by
    cases chars : before.toList with
    | nil => simp [chars] at start
    | cons c rest => simpa [chars] using start
  have named : (before ++ name ++ after).toList.dropPrefix? before.toList =
      some (name.toList ++ after.toList) := by
    rw [String.append_assoc, String.toList_append, String.toList_append]
    exact List.dropPrefix?_append_of_beq _ (by simp)
  have bare : (name.toList ++ after.toList).dropSuffix? after.toList = some name.toList :=
    List.dropSuffix?_eq_some_iff.mpr ⟨after.toList, rfl, by simp⟩
  rw [guardLine?_directive before after depth shown, named, Option.bind_some, bare, Option.map_some,
    String.ofList_toList]

theorem guardLine?_plain (before after : String) {line : String} (start : line.toList.head? ≠ some '#') :
    guardLine? before after line = none := by
  have absent : line.toList.dropPrefix? ['#'] = none := by
    cases chars : line.toList with
    | nil => rfl
    | cons c rest =>
      have other : (c == '#') = false := by simpa [chars] using start
      simp [List.dropPrefix?, other]
  simp [guardLine?, absent]

theorem isInner_plain {line : String} (start : line.toList.head? ≠ some '#') : IsInner line :=
  ⟨guardLine?_plain _ _ start, guardLine?_plain _ _ start⟩

theorem isInner_define (depth : Nat) (rest : String) :
    IsInner (Region.directive depth ("define " ++ rest)) := by
  have start : ("define " ++ rest).toList.head? ≠ some ' ' := by simp
  constructor
  · rw [opened?, guardLine?_directive _ _ depth start, String.toList_append]
    rfl
  · rw [closed?, guardLine?_directive _ _ depth start, String.toList_append]
    rfl

namespace Region

theorem opened?_opening (r : Region) : opened? r.opening = some (r.depth, r.guardName) :=
  guardLine?_written ")" r.guardName r.depth rfl

theorem closed?_closing (r : Region) : closed? r.closing = some (r.depth, r.guardName) :=
  guardLine?_written " */" r.guardName r.depth rfl

theorem opened?_closing (r : Region) : opened? r.closing = none := by
  have start : ("endif /* " ++ r.guardName ++ " */").toList.head? ≠ some ' ' := by simp
  rw [opened?, closing, guardLine?_directive _ _ _ start, String.toList_append, String.toList_append]
  rfl

end Region

theorem foldlM_inner (finished : List Region) (current : Region) {body : List String}
    (inner : ∀ line ∈ body, IsInner line) :
    body.foldlM Scan.step? (.inside finished current) =
      some (.inside finished { current with body := current.body ++ body }) := by
  induction body generalizing current with
  | nil => simp
  | cons line body ih =>
    obtain ⟨⟨unopened, unclosed⟩, later⟩ := List.forall_mem_cons.mp inner
    have step : Scan.step? (.inside finished current) line =
        some (.inside finished { current with body := current.body ++ [line] }) := by
      rw [Scan.step?, unopened, unclosed]
    rw [foldlM_cons_of_some step, ih _ later]
    simp

theorem foldlM_region (finished : List Region) {r : Region} (inner : ∀ line ∈ r.body, IsInner line) :
    r.lines.foldlM Scan.step? (.outside finished) = some (.outside (finished ++ [r])) := by
  have opens : Scan.step? (.outside finished) r.opening =
      some (.inside finished ⟨r.guardName, r.depth, []⟩) := by
    rw [Scan.step?, r.opened?_opening]
    rfl
  have closes : Scan.step? (.inside finished r) r.closing = some (.outside (finished ++ [r])) := by
    simp [Scan.step?, r.opened?_closing, r.closed?_closing]
  rw [Region.lines, List.cons_append, foldlM_cons_of_some opens,
    foldlM_append_of_some (foldlM_inner finished _ inner)]
  simp [closes]

theorem foldlM_regions (finished : List Region) {rs : List Region}
    (inner : ∀ r ∈ rs, ∀ line ∈ r.body, IsInner line) :
    (rs.flatMap Region.lines).foldlM Scan.step? (.outside finished) = some (.outside (finished ++ rs)) := by
  induction rs generalizing finished with
  | nil => simp
  | cons r rs ih =>
    obtain ⟨first, later⟩ := List.forall_mem_cons.mp inner
    rw [List.flatMap_cons, foldlM_append_of_some (foldlM_region finished first), ih _ later]
    simp

theorem regions?_lines {rs : List Region} (inner : ∀ r ∈ rs, ∀ line ∈ r.body, IsInner line) :
    regions? (rs.flatMap Region.lines) = some rs := by
  rw [regions?, foldlM_regions [] inner, List.nil_append]

end GLHeader.Header
