import IrcLink.Proofs.Session.Lines
import Mathlib.Data.List.Basic
import Mathlib.Data.List.TakeWhile

/-!
The grammar of inbound lines. A line is put together from its parts in one way only (`Parts.line_injective`), and reading
takes it apart again: it accepts exactly the lines that have parts, and nothing but the first line of a stream counts.
-/

namespace IrcLink

open Bytes

namespace Message

theorem isCommandByte_eq (b : UInt8) : isCommandByte b = (Char.ofUInt8 b).isAlphanum := by
  have bytes : ∀ n : Fin 256, isCommandByte (UInt8.ofFin n) = (Char.ofUInt8 (UInt8.ofFin n)).isAlphanum := by
    decide +kernel
  exact bytes b.toFin

theorem dropCr_eq_iff {line text : Bytes} :
    dropCr line = text ↔ line = text ++ [cr] ∨ line = text ∧ text.getLast? ≠ some cr := by
  unfold dropCr
  constructor
  · intro h
    split at h
    · rename_i hcr
      obtain ⟨before, rfl⟩ := List.getLast?_eq_some_iff.mp hcr
      rw [List.dropLast_concat] at h
      exact .inl (by rw [h])
    · rename_i hcr
      exact .inr ⟨h, h ▸ hcr⟩
  · rintro (rfl | ⟨rfl, hcr⟩)
    · rw [if_pos List.getLast?_concat, List.dropLast_concat]
    · exact if_neg hcr

/-- `[":" origin " "] spaces command [" " params]` -/
structure Parts where
  origin : Option Bytes
  origin_word : ∀ o ∈ origin, space ∉ o
  indent : Nat
  command : Bytes
  command_ne : command ≠ []
  command_plain : ∀ b ∈ command, (Char.ofUInt8 b).isAlphanum = true
  params : Option Bytes

namespace Parts

def body (p : Parts) : Bytes := List.replicate p.indent space ++ (p.command ++ p.params.elim [] (space :: ·))

def line (p : Parts) : Bytes := p.origin.elim p.body fun o => colon :: (o ++ space :: p.body)

def message (p : Parts) : Message := ⟨p.origin, p.command, p.params.getD []⟩

variable (p : Parts)

theorem command_all : p.command.all isCommandByte = true := by
  rw [List.all_eq_true]
  intro b hb
  rw [isCommandByte_eq]
  exact p.command_plain b hb

theorem space_notMem_command : space ∉ p.command := by
  intro h
  exact absurd (p.command_plain space h) (by decide)

theorem head_command_ne {b : UInt8} (hb : (Char.ofUInt8 b).isAlphanum = false) (tail : Bytes) :
    (p.command ++ tail).head? ≠ some b := by
  intro h
  obtain ⟨c, rest, hc⟩ := List.exists_cons_of_ne_nil p.command_ne
  rw [hc, List.cons_append, List.head?_cons] at h
  obtain rfl := Option.some.inj h
  have hplain := p.command_plain c (hc ▸ List.mem_cons_self)
  rw [hb] at hplain
  exact absurd hplain nofun

theorem head_body_ne : p.body.head? ≠ some colon := by
  unfold body
  cases p.indent with
  | zero => exact p.head_command_ne (by decide) _
  | succ n => simp [List.replicate_succ, colon, space]

theorem dropWhile_body :
    p.body.dropWhile (· = space) = p.command ++ p.params.elim [] (space :: ·) ∧
      (p.body.takeWhile (· = space)).length = p.indent := by
  have hspaces : ∀ b ∈ List.replicate p.indent space, decide (b = space) = true := by
    intro b hb
    exact decide_eq_true (List.eq_of_mem_replicate hb)
  obtain ⟨c, rest, hc⟩ := List.exists_cons_of_ne_nil p.command_ne
  have hne : c ≠ space := by
    rintro rfl
    exact p.space_notMem_command (hc ▸ List.mem_cons_self)
  rw [body, List.dropWhile_append_of_pos hspaces, List.takeWhile_append_of_pos hspaces, hc]
  simp [hne]

theorem splitAt?_command : splitAt? space (p.command ++ p.params.elim [] (space :: ·)) = p.params.map (p.command, ·) := by
  cases p.params with
  | none =>
    apply splitAt?_eq_none.mpr
    rw [Option.elim_none, List.append_nil]
    exact p.space_notMem_command
  | some r => exact splitAt?_of_notMem p.space_notMem_command r

theorem splitOrigin_line :
    splitOrigin p.line = .ok (p.origin, p.origin.elim p.body fun _ => space :: p.body) := by
  unfold line
  cases ho : p.origin with
  | none =>
    have hne := p.head_body_ne
    rw [Option.elim_none, Option.elim_none]
    cases hb : p.body with
    | nil => rfl
    | cons b rest =>
      rw [hb, List.head?_cons, ne_eq, Option.some.injEq] at hne
      rw [splitOrigin, if_neg hne]
  | some o =>
    have hs := splitAt?_of_notMem (p.origin_word o ho) p.body
    rw [Option.elim_some, Option.elim_some, splitOrigin, if_pos rfl, hs]

theorem ofLine_line : ofLine p.line = .ok p.message := by
  have hbody := p.dropWhile_body.1
  have hrest : (p.origin.elim p.body fun _ => space :: p.body).dropWhile (· = space) =
      p.command ++ p.params.elim [] (space :: ·) := by
    cases p.origin with
    | none => exact hbody
    | some o =>
      rw [Option.elim_some, List.dropWhile_cons_of_pos (by simp)]
      exact hbody
  have hne : p.command ++ p.params.elim [] (space :: ·) ≠ [] := by
    intro h
    exact p.command_ne (List.append_eq_nil_iff.mp h).1
  rw [ofLine, splitOrigin_line]
  dsimp only [bind, Except.bind]
  rw [hrest, if_neg hne, splitAt?_command]
  cases hparams : p.params with
  | none =>
    rw [Option.map_none, Option.getD_none, Option.elim_none, List.append_nil]
    dsimp only
    rw [if_pos p.command_all, message, hparams]
    rfl
  | some r =>
    rw [Option.map_some, Option.getD_some]
    dsimp only
    rw [if_pos p.command_all, message, hparams]
    rfl

theorem line_injective {p p' : Parts} (h : p.line = p'.line) : p = p' := by
  have horigin := p.splitOrigin_line
  rw [h, splitOrigin_line] at horigin
  obtain ⟨ho, hbody⟩ := Prod.mk.inj (Except.ok.inj horigin)
  have hb : p'.body = p.body := by
    rw [ho] at hbody
    cases hp : p.origin with
    | none => simpa [hp] using hbody
    | some o => simpa [hp] using hbody
  obtain ⟨hcommand, hindent⟩ := p.dropWhile_body
  obtain ⟨hcommand', hindent'⟩ := p'.dropWhile_body
  rw [hb] at hcommand' hindent'
  have hm := p.ofLine_line
  rw [h, ofLine_line] at hm
  have hc : p'.command = p.command := congrArg Message.command (Except.ok.inj hm)
  have hparams : p'.params = p.params := by
    rw [hcommand, hc] at hcommand'
    have htail := List.append_cancel_left hcommand'
    cases hp : p.params <;> cases hp' : p'.params <;> simp_all
  obtain ⟨origin, _, indent, command, _, _, params⟩ := p
  obtain ⟨origin', _, indent', command', _, _, params'⟩ := p'
  dsimp only at ho hc hparams hindent hindent'
  obtain rfl := ho
  obtain rfl := hc
  obtain rfl := hparams
  obtain rfl := hindent.symm.trans hindent'
  rfl

theorem origin_iff : p.origin ≠ none ↔ p.line.head? = some colon := by
  unfold line
  cases p.origin with
  | none => simpa using p.head_body_ne
  | some o => simp

end Parts

theorem splitOrigin_ok {text rest : Bytes} {origin : Option Bytes} (h : splitOrigin text = .ok (origin, rest)) :
    (∀ o ∈ origin, space ∉ o) ∧
      (origin = none ∧ text = rest ∨ ∃ o after, origin = some o ∧ rest = space :: after ∧ text = colon :: (o ++ rest)) := by
  unfold splitOrigin at h
  split at h
  · obtain ⟨rfl, rfl⟩ := Prod.mk.inj (Except.ok.inj h)
    exact ⟨by simp, .inl ⟨rfl, rfl⟩⟩
  · rename_i b line
    split at h
    · rename_i hb
      split at h
      · simp at h
      · rename_i o after hs
        obtain ⟨rfl, rfl⟩ := Prod.mk.inj (Except.ok.inj h)
        obtain ⟨rfl, hword⟩ := splitAt?_eq_some hs
        refine ⟨?_, .inr ⟨o, after, rfl, rfl, by rw [hb]⟩⟩
        rintro _ ⟨⟩
        exact hword
    · obtain ⟨rfl, rfl⟩ := Prod.mk.inj (Except.ok.inj h)
      exact ⟨by simp, .inl ⟨rfl, rfl⟩⟩

theorem splitCommand_eq {body command params : Bytes} (h : (splitAt? space body).getD (body, []) = (command, params)) :
    ∃ r : Option Bytes, body = command ++ r.elim [] (space :: ·) ∧ params = r.getD [] := by
  cases hs : splitAt? space body with
  | none =>
    rw [hs] at h
    obtain ⟨rfl, rfl⟩ := Prod.mk.inj h
    exact ⟨none, (List.append_nil _).symm, rfl⟩
  | some q =>
    rw [hs] at h
    obtain rfl : q = (command, params) := h
    exact ⟨some params, (splitAt?_eq_some hs).1, rfl⟩

theorem indent_eq {body command : Bytes} {r : Option Bytes}
    (h : body.dropWhile (· = space) = command ++ r.elim [] (space :: ·)) (hne : body.dropWhile (· = space) ≠ []) :
    command ≠ [] ∧ ∃ n, body = List.replicate n space ++ (command ++ r.elim [] (space :: ·)) := by
  constructor
  · rintro rfl
    have hhead := List.head_dropWhile_not (fun b => decide (b = space)) hne
    cases r with
    | none => exact hne h
    | some r =>
      simp only [h] at hhead
      exact absurd hhead (by simp)
  · have hspaces : body.takeWhile (· = space) = List.replicate (body.takeWhile (· = space)).length space := by
      apply List.eq_replicate_of_mem
      intro b hb
      simpa using List.mem_takeWhile_imp hb
    refine ⟨(body.takeWhile (· = space)).length, ?_⟩
    rw [← hspaces, ← h, List.takeWhile_append_dropWhile]

theorem exists_parts {text : Bytes} {m : Message} (h : ofLine text = .ok m) : ∃ p : Parts, p.line = text ∧ p.message = m := by
  unfold ofLine at h
  cases ho : splitOrigin text with
  | error e =>
    rw [ho] at h
    exact absurd h nofun
  | ok q =>
    obtain ⟨origin, rest⟩ := q
    obtain ⟨hword, htext⟩ := splitOrigin_ok ho
    rw [ho] at h
    dsimp only [bind, Except.bind] at h
    split at h
    · exact absurd h nofun
    · rename_i hne
      cases hs : (splitAt? space (rest.dropWhile (· = space))).getD (rest.dropWhile (· = space), []) with
      | mk command params =>
        obtain ⟨r, hbody, rfl⟩ := splitCommand_eq hs
        rw [hs] at h
        dsimp only at h
        split at h
        · rename_i hall
          obtain rfl := Except.ok.inj h
          have hplain : ∀ b ∈ command, (Char.ofUInt8 b).isAlphanum = true := by
            intro b hb
            rw [← isCommandByte_eq]
            exact List.all_eq_true.mp hall b hb
          obtain ⟨rfl, rfl⟩ | ⟨o, after, rfl, rfl, rfl⟩ := htext
          · obtain ⟨hcommand, n, hn⟩ := indent_eq hbody hne
            exact ⟨⟨none, nofun, n, command, hcommand, hplain, r⟩, hn.symm, rfl⟩
          · rw [List.dropWhile_cons_of_pos (by simp)] at hbody hne
            obtain ⟨hcommand, n, hn⟩ := indent_eq hbody hne
            exact ⟨⟨some o, hword, n, command, hcommand, hplain, r⟩, by rw [hn]; rfl, rfl⟩
        · exact absurd h nofun

/-- The first line of a stream, without its terminator, and how many bytes it takes up with it. -/
def FirstLine (data text : Bytes) (n : Nat) : Prop :=
  ∃ line rest, data = line ++ lf :: rest ∧ lf ∉ line ∧ n = line.length + 1 ∧
    (line = text ++ [cr] ∨ line = text ∧ text.getLast? ≠ some cr)

theorem firstLine_iff {data text : Bytes} {n : Nat} :
    FirstLine data text n ↔
      ∃ line rest, splitAt? lf data = some (line, rest) ∧ dropCr line = text ∧ n = line.length + 1 := by
  constructor
  · rintro ⟨line, rest, rfl, hline, hn, htext⟩
    exact ⟨line, rest, splitAt?_of_notMem hline rest, dropCr_eq_iff.mpr htext, hn⟩
  · rintro ⟨line, rest, hs, htext, hn⟩
    obtain ⟨hdata, hline⟩ := splitAt?_eq_some hs
    exact ⟨line, rest, hdata, hline, hn, dropCr_eq_iff.mp htext⟩

namespace FirstLine

variable {data text : Bytes} {n : Nat}

theorem parse_eq (h : FirstLine data text n) : parse data = (ofLine text).map (·, n) := by
  obtain ⟨line, rest, hs, rfl, rfl⟩ := firstLine_iff.mp h
  exact parse_of_splitAt? hs

theorem unique (h : FirstLine data text n) {text' : Bytes} {n' : Nat} (h' : FirstLine data text' n') :
    text = text' ∧ n = n' := by
  obtain ⟨line, rest, hs, rfl, rfl⟩ := firstLine_iff.mp h
  obtain ⟨line', rest', hs', rfl, rfl⟩ := firstLine_iff.mp h'
  obtain ⟨rfl, rfl⟩ := Prod.mk.inj (Option.some.inj (hs.symm.trans hs'))
  exact ⟨rfl, rfl⟩

theorem take_append (h : FirstLine data text n) (more : Bytes) : FirstLine (data.take n ++ more) text n := by
  obtain ⟨line, rest, rfl, hline, rfl, htext⟩ := h
  refine ⟨line, more, ?_, hline, rfl, htext⟩
  rw [List.append_cons, List.take_left' (by simp)]
  simp

theorem lf_notMem_take (h : FirstLine data text n) {k : Nat} (hk : k < n) : lf ∉ data.take k := by
  obtain ⟨line, rest, rfl, hline, rfl, -⟩ := h
  rw [List.take_append_of_le_length (by omega)]
  exact fun hm => hline (List.mem_of_mem_take hm)

theorem idxOf_eq (h : FirstLine data text n) : n = data.idxOf lf + 1 := by
  obtain ⟨line, rest, rfl, hline, rfl, -⟩ := h
  rw [List.idxOf_append_of_notMem hline, List.idxOf_cons_self, Nat.add_zero]

end FirstLine

theorem exists_firstLine {data : Bytes} (h : lf ∈ data) : ∃ text n, FirstLine data text n := by
  cases hs : splitAt? lf data with
  | none => exact absurd h (splitAt?_eq_none.mp hs)
  | some p => exact ⟨_, _, firstLine_iff.mpr ⟨p.1, p.2, hs, rfl, rfl⟩⟩

theorem parse_eq_incomplete_iff {data : Bytes} : parse data = .error .incomplete ↔ lf ∉ data := by
  constructor
  · intro h hm
    obtain ⟨text, n, hf⟩ := exists_firstLine hm
    rw [hf.parse_eq] at h
    cases ho : ofLine text with
    | ok m => simp [ho, Except.map] at h
    | error e =>
      obtain rfl := ofLine_error ho
      simp [ho, Except.map] at h
  · intro h
    exact parse_of_none (splitAt?_eq_none.mpr h)

theorem parse_eq_ok_iff {data : Bytes} {m : Message} {n : Nat} :
    parse data = .ok (m, n) ↔ ∃ p : Parts, FirstLine data p.line n ∧ p.message = m := by
  constructor
  · intro h
    by_cases hm : lf ∈ data
    · obtain ⟨text, n', hf⟩ := exists_firstLine hm
      rw [hf.parse_eq] at h
      cases ho : ofLine text with
      | error e => simp [ho, Except.map] at h
      | ok m' =>
        obtain ⟨rfl, rfl⟩ : m' = m ∧ n' = n := by simpa [ho, Except.map] using h
        obtain ⟨p, rfl, hp⟩ := exists_parts ho
        exact ⟨p, hf, hp⟩
    · rw [parse_eq_incomplete_iff.mpr hm] at h
      exact absurd h nofun
  · rintro ⟨p, hf, rfl⟩
    rw [hf.parse_eq, p.ofLine_line]
    rfl

theorem parse_eq_invalid_iff {data : Bytes} :
    parse data = .error .invalid ↔ ∃ text n, FirstLine data text n ∧ ∀ p : Parts, p.line ≠ text := by
  constructor
  · intro h
    by_cases hm : lf ∈ data
    · obtain ⟨text, n, hf⟩ := exists_firstLine hm
      refine ⟨text, n, hf, ?_⟩
      rintro p rfl
      rw [parse_eq_ok_iff.mpr ⟨p, hf, rfl⟩] at h
      exact absurd h nofun
    · rw [parse_eq_incomplete_iff.mpr hm] at h
      exact absurd h nofun
  · rintro ⟨text, n, hf, hnone⟩
    rw [hf.parse_eq]
    cases ho : ofLine text with
    | error e =>
      obtain rfl := ofLine_error ho
      rfl
    | ok m =>
      obtain ⟨p, hp, -⟩ := exists_parts ho
      exact absurd hp (hnone p)

theorem parse_accepts_grammar (data : Bytes) :
    (parse data = .error .incomplete ↔ lf ∉ data) ∧
    (∀ m n, parse data = .ok (m, n) ↔ ∃ p : Parts, FirstLine data p.line n ∧ p.message = m) ∧
    (parse data = .error .invalid ↔ ∃ text n, FirstLine data text n ∧ ∀ p : Parts, p.line ≠ text) ∧
    -- a stream has one first line at most, which ends at the first LF
    (lf ∈ data → ∃ text, FirstLine data text (data.idxOf lf + 1) ∧
      ∀ text' n, FirstLine data text' n → text' = text ∧ n = data.idxOf lf + 1) ∧
    -- a line has parts in one way at most, with an origin exactly if it starts with a colon
    (∀ p p' : Parts, p.line = p'.line → p = p') ∧ (∀ p : Parts, p.origin ≠ none ↔ p.line.head? = some colon) ∧
    -- what comes after the first LF is of no account, and nothing is read before it
    ∀ text n, FirstLine data text n →
      (∀ more, parse (data.take n ++ more) = parse data) ∧ ∀ k < n, parse (data.take k) = .error .incomplete := by
  refine ⟨parse_eq_incomplete_iff, fun m n => parse_eq_ok_iff, parse_eq_invalid_iff, ?_, fun p p' => Parts.line_injective,
    Parts.origin_iff, ?_⟩
  · intro hm
    obtain ⟨text, n, hf⟩ := exists_firstLine hm
    obtain rfl := hf.idxOf_eq
    exact ⟨text, hf, fun text' n' hf' => hf'.unique hf⟩
  · intro text n hf
    constructor
    · intro more
      rw [hf.parse_eq, (hf.take_append more).parse_eq]
    · intro k hk
      exact parse_eq_incomplete_iff.mpr (hf.lf_notMem_take hk)

def everything : Parts where
  origin := some (ofText "irc.example.net")
  origin_word := by decide
  indent := 1
  command := ofText "PRIVMSG"
  command_ne := by decide
  command_plain := by decide +kernel
  params := some (ofText "#c :hi")

theorem parse_accepts_grammar_of_everything :
    parse (ofText ":irc.example.net  PRIVMSG #c :hi\r\nPING") =
        .ok (⟨some (ofText "irc.example.net"), ofText "PRIVMSG", ofText "#c :hi"⟩, 34) ∧
      parse (ofText ":irc.example.net  PRIVMSG #c :hi\r") = .error .incomplete := by
  obtain ⟨-, hok, -, -, -, -, hfirst⟩ := parse_accepts_grammar (ofText ":irc.example.net  PRIVMSG #c :hi\r\nPING")
  have hf : FirstLine (ofText ":irc.example.net  PRIVMSG #c :hi\r\nPING") everything.line 34 :=
    ⟨ofText ":irc.example.net  PRIVMSG #c :hi\r", ofText "PING", by decide +kernel, by decide +kernel, by decide +kernel,
      .inl (by decide +kernel)⟩
  refine ⟨(hok _ _).mpr ⟨everything, hf, by decide +kernel⟩, ?_⟩
  obtain ⟨-, hbefore⟩ := hfirst _ _ hf
  have htake : (ofText ":irc.example.net  PRIVMSG #c :hi\r\nPING").take 33 = ofText ":irc.example.net  PRIVMSG #c :hi\r" := by
    decide +kernel
  rw [← htake]
  exact hbefore 33 (by decide)

end Message

end IrcLink
