import IrcLink.Proofs.Checked.Basic
import IrcLink.Message

/-!
A line is taken apart at places that were found in it, so nothing is asked for that lies outside.
-/

namespace IrcLink

namespace Bytes

theorem splitAt?_eq_findIdx? (b : UInt8) (s : Bytes) :
    splitAt? b s = (s.findIdx? (· = b)).map fun i => (s.take i, s.drop (i + 1)) := by
  induction s with
  | nil => rfl
  | cons c rest ih =>
    rw [splitAt?_cons, List.findIdx?_cons, ih]
    by_cases hc : c = b
    · simp [hc]
    · simp [hc, Function.comp_def]

theorem afterPair?_eq_findIdx? (b c : UInt8) (s : Bytes) :
    afterPair? b c s = ((s.zip s.tail).findIdx? (· = (b, c))).map fun i => s.drop (i + 2) := by
  induction s with
  | nil => rfl
  | cons x rest ih =>
    cases rest with
    | nil => rfl
    | cons y rest =>
      rw [afterPair?, ih, List.tail_cons, List.tail_cons, List.zip_cons_cons, List.findIdx?_cons]
      by_cases hxy : x = b ∧ y = c
      · simp [hxy]
      · simp [hxy, Function.comp_def]

end Bytes

namespace Checked.Message

open IrcLink.Message Bytes

def splitOrigin : Bytes → Except Panic (Except ParseError (Option Bytes × Bytes))
  | [] => return .ok (none, [])
  | b :: line =>
    if b = colon then
      match line.findIdx? (· = space) with
      | none => return .error .invalid
      | some i => return .ok (some (← slice line 0 i), ← slice line i line.length)
    else return .ok (none, b :: line)

def splitCommand (body : Bytes) : Except Panic (Bytes × Bytes) :=
  match body.findIdx? (· = space) with
  | some i => return (← slice body 0 i, ← slice body (i + 1) body.length)
  | none => return (body, ← slice body body.length body.length)

def ofBody (origin : Option Bytes) (rest : Bytes) : Except Panic (Except ParseError Message) :=
  match rest.findIdx? (· ≠ space) with
  | none => return .error .invalid
  | some i => do
    let (command, params) ← splitCommand (← slice rest i rest.length)
    return if command.all isCommandByte then .ok ⟨origin, command, params⟩ else .error .invalid

def ofLine (line : Bytes) : Except Panic (Except ParseError Message) := do
  match ← splitOrigin line with
  | .error e => return .error e
  | .ok (origin, rest) => ofBody origin rest

def parse (data : Bytes) : Except Panic (Except ParseError (Message × Nat)) :=
  match data.findIdx? (· = lf) with
  | none => return .error .incomplete
  | some stop => return (← ofLine (dropCr (← slice data 0 stop))).map (·, stop + 1)

def trailing (m : Message) : Except Panic (Option Bytes) :=
  match m.params with
  | [] => return none
  | b :: rest =>
    if b = colon then return some rest
    else match (m.params.zip m.params.tail).findIdx? (· = (space, colon)) with
      | none => return none
      | some i => return some (← slice m.params (i + 2) m.params.length)

variable {α : Type}

theorem lt_of_findIdx? {p : α → Bool} {s : List α} {i : Nat} (h : s.findIdx? p = some i) : i < s.length :=
  (List.findIdx?_eq_some_iff_findIdx_eq.mp h).1

theorem splitOrigin_eq (s : Bytes) : splitOrigin s = .ok (IrcLink.Message.splitOrigin s) := by
  cases s with
  | nil => rfl
  | cons b rest =>
    rw [splitOrigin, IrcLink.Message.splitOrigin, splitAt?_eq_findIdx?]
    by_cases hb : b = colon
    · rw [if_pos hb, if_pos hb]
      cases hi : rest.findIdx? (· = space) with
      | none => rfl
      | some i =>
        have hlt := lt_of_findIdx? hi
        have hat : rest[i] = space := of_decide_eq_true (List.findIdx?_eq_some_iff_getElem.mp hi).2.1
        dsimp only [Option.map_some]
        rw [slice_front (Nat.le_of_lt hlt), slice_rest (Nat.le_of_lt hlt), List.drop_eq_getElem_cons hlt, hat]
        rfl
    · rw [if_neg hb, if_neg hb]
      rfl

theorem splitCommand_eq (body : Bytes) : splitCommand body = .ok ((splitAt? space body).getD (body, [])) := by
  rw [splitCommand, splitAt?_eq_findIdx?]
  cases hi : body.findIdx? (· = space) with
  | none =>
    dsimp only
    rw [slice_rest (Nat.le_refl _), List.drop_length]
    rfl
  | some i =>
    have hlt := lt_of_findIdx? hi
    dsimp only
    rw [slice_front (Nat.le_of_lt hlt), slice_rest hlt]
    rfl

theorem dropWhile_space (s : Bytes) :
    s.dropWhile (· = space) = ((s.findIdx? (· ≠ space)).map s.drop).getD [] := by
  induction s with
  | nil => rfl
  | cons b rest ih =>
    rw [List.dropWhile_cons, List.findIdx?_cons, ih]
    by_cases hb : b = space
    · simp [hb, Function.comp_def]
    · simp [hb]

theorem ofLine_eq (line : Bytes) : ofLine line = .ok (IrcLink.Message.ofLine line) := by
  rw [ofLine, splitOrigin_eq, IrcLink.Message.ofLine]
  cases IrcLink.Message.splitOrigin line with
  | error e => rfl
  | ok p =>
    obtain ⟨origin, rest⟩ := p
    dsimp only [bind, Except.bind, ofBody]
    rw [dropWhile_space]
    cases hi : rest.findIdx? (· ≠ space) with
    | none => rfl
    | some i =>
      have hlt := lt_of_findIdx? hi
      have hbody : rest.drop i ≠ [] := by simpa using hlt
      dsimp only [Option.map_some, Option.getD_some]
      rw [slice_rest (Nat.le_of_lt hlt), if_neg hbody]
      dsimp only
      rw [splitCommand_eq]
      rfl

theorem parse_eq (data : Bytes) : parse data = .ok (IrcLink.Message.parse data) := by
  rw [parse, IrcLink.Message.parse, splitAt?_eq_findIdx?]
  cases hi : data.findIdx? (· = lf) with
  | none => rfl
  | some stop =>
    have hlt := lt_of_findIdx? hi
    dsimp only [Option.map_some]
    rw [slice_front (Nat.le_of_lt hlt), List.length_take_of_le (Nat.le_of_lt hlt)]
    dsimp only [bind, Except.bind]
    rw [ofLine_eq]
    rfl

theorem trailing_eq (m : Message) : trailing m = .ok m.trailing := by
  rw [trailing, IrcLink.Message.trailing, afterPair?_eq_findIdx?]
  cases hp : m.params with
  | nil => rfl
  | cons b rest =>
    dsimp only
    split
    · rfl
    · cases hi : ((b :: rest).zip (b :: rest).tail).findIdx? (· = (space, colon)) with
      | none => rfl
      | some i =>
        have hlt := lt_of_findIdx? hi
        rw [List.length_zip, List.length_tail] at hlt
        dsimp only [Option.map_some]
        rw [slice_rest (by omega)]
        rfl

end Checked.Message

end IrcLink
