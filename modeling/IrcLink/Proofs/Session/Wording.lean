import IrcLink.Proofs.Message.Params
import IrcLink.Proofs.Session.Outbound

/-!
What the receiver of a line makes of it. A word that was accepted is read as the one parameter it was meant to be,
unless it starts with a colon: then a nick or a key loses the colon, and a login or a channel swallows what follows it.
-/

namespace IrcLink

open Bytes

theorem Utf8.head?_ofText (s : String) : (ofText s).head? = some colon ↔ s.toList.head? = some ':' := by
  rw [ofText]
  cases s.toList with
  | nil => exact ⟨nofun, nofun⟩
  | cons c cs =>
    obtain ⟨b, rest, hc, -⟩ := first_encodeChar c []
    rw [List.flatMap_cons, hc, List.cons_append, List.head?_cons, List.head?_cons, Option.some_inj, Option.some_inj]
    constructor
    · rintro rfl
      have hm := mem_encodeChar (hc ▸ List.mem_cons_self : colon ∈ String.utf8EncodeChar c)
      have hcolon : colon.toNat = ':'.toNat := rfl
      refine Char.toNat_inj.mp ?_
      rw [← hcolon]
      obtain hm | hm := hm
      · exact hm.symm
      · exact absurd hm (by decide)
    · rintro rfl
      exact (List.cons.inj hc).1.symm

namespace Command

def words : Command → List String
  | nick n => [n]
  | user login _ => [login]
  | join channel key => channel :: key.toList
  | pong _ | quit _ => []

/-- The parameters that the command is to be read as. -/
def meant : Command → List Bytes
  | nick n => [ofText n]
  | user login realname => [ofText login, ofText "8", ofText "*", ofText realname]
  | join channel key => ofText channel :: key.toList.map ofText
  | pong params => (Message.Params.split params).all
  | quit reason => reason.toList.map ofText

def Unmarked (w : String) : Prop := w.toList.head? ≠ some ':'

instance : DecidablePred Unmarked := fun w => inferInstanceAs (Decidable (w.toList.head? ≠ some ':'))

/-- Whatever follows it, the line is read as one message, with the parameters that were meant. -/
def Survives (c : Command) : Prop :=
  ∀ rest, ∃ m, Message.parse (c.encode ++ rest) = .ok (m, c.encode.length) ∧ (Message.Params.split m.params).all = c.meant

open Message.Params

theorem word_ofText {w : String} (h : Config.isWord w = true) (hu : Unmarked w) : Word (ofText w) where
  ne_nil hw := by
    have hempty : Utf8.decode? [] = some "" := Utf8.decode?_ofText ""
    have hd := Utf8.decode?_ofText w
    rw [hw, hempty] at hd
    obtain rfl := Option.some.inj hd
    exact absurd h (by decide)
  space_notMem := space_notMem_text (Config.space_notMem_of_isWord h)
  unmarked := mt (Utf8.head?_ofText w).mp hu

theorem all_split_ofText {w : String} (h : Config.isWord w = true) : (split (ofText w)).all = [ofText w] ↔ Unmarked w := by
  by_cases hu : Unmarked w
  · rw [split_word (word_ofText h hu)]
    exact iff_of_true rfl hu
  · have hm := (Utf8.head?_ofText w).mpr (not_not.mp hu)
    have hs := split_marked hm []
    rw [List.append_nil, List.append_nil] at hs
    refine iff_of_false ?_ hu
    rw [hs]
    obtain ⟨more, hw⟩ := List.head?_eq_some_iff.mp hm
    rw [hw]
    intro he
    have hl := congrArg List.length (List.cons.inj he).1
    simp at hl

theorem all_split_ofText_then {w : String} (h : Config.isWord w = true) (rest : Bytes) :
    (Unmarked w → (split (ofText w ++ space :: rest)).all = ofText w :: (split rest).all) ∧
      (¬ Unmarked w → (split (ofText w ++ space :: rest)).all.length = 1) := by
  constructor
  · intro hu
    rw [split_word_then (word_ofText h hu)]
    rfl
  · intro hu
    rw [split_marked ((Utf8.head?_ofText w).mpr (not_not.mp hu))]
    rfl

theorem all_split_after_login (realname : String) :
    (split (ofText "8 * :" ++ ofText realname)).all = [ofText "8", ofText "*", ofText realname] := by
  have hmode : Word (ofText "8") := ⟨by decide, by decide, by decide⟩
  have hunused : Word (ofText "*") := ⟨by decide, by decide, by decide⟩
  have hs := split_word_then hmode (ofText "*" ++ space :: colon :: ofText realname)
  rw [split_word_then hunused, split_colon] at hs
  exact congrArg all hs

namespace Proper

variable {c : Command}

theorem survives_iff_split (h : c.Proper) : c.Survives ↔ (split (c.args.getD [])).all = c.meant := by
  constructor
  · intro hs
    obtain ⟨m, hp, hm⟩ := hs []
    rw [h.sendable.parse_encode] at hp
    obtain rfl := (Prod.mk.inj (Except.ok.inj hp)).1
    exact hm
  · intro hs rest
    exact ⟨_, h.sendable.parse_encode rest, hs⟩

theorem survives_iff (h : c.Proper) : c.Survives ↔ ∀ w ∈ c.words, Unmarked w := by
  rw [h.survives_iff_split]
  cases c with
  | nick n =>
    rw [words, List.forall_mem_singleton]
    exact all_split_ofText h
  | user login realname =>
    obtain ⟨hthen, hswallows⟩ := all_split_ofText_then h.1 (ofText "8 * :" ++ ofText realname)
    rw [words, List.forall_mem_singleton, args, Option.getD_some, meant]
    by_cases hu : Unmarked login
    · rw [hthen hu, all_split_after_login]
      exact iff_of_true rfl hu
    · refine iff_of_false ?_ hu
      intro he
      have hl := hswallows hu
      simp [he] at hl
  | join channel key =>
    obtain ⟨hchannel, hkey⟩ := h
    rw [words, List.forall_mem_cons, args, Option.getD_some, meant]
    cases key with
    | none =>
      rw [Option.elim_none, List.append_nil]
      simpa using all_split_ofText hchannel
    | some k =>
      obtain ⟨hthen, hswallows⟩ := all_split_ofText_then hchannel (ofText k)
      simp only [Option.elim_some, Option.toList_some, List.map_cons, List.map_nil, List.forall_mem_singleton]
      by_cases hu : Unmarked channel
      · rw [hthen hu, List.cons_inj_right, all_split_ofText (hkey k rfl)]
        exact (and_iff_right hu).symm
      · refine iff_of_false ?_ (fun hb => hu hb.1)
        intro he
        have hl := hswallows hu
        simp [he] at hl
  | pong params =>
    rw [getD_args_pong]
    exact iff_of_true rfl (List.forall_mem_nil _)
  | quit reason =>
    refine iff_of_true ?_ (List.forall_mem_nil _)
    cases reason with
    | none => rw [args, Option.map_none, Option.getD_none, split_nil]; rfl
    | some r => rw [args, Option.map_some, Option.getD_some, split_colon]; rfl

end Proper

end Command

def Config.words (config : Config) : List String :=
  config.identity.nicks ++ config.identity.login :: config.channels.flatMap fun ch => ch.name :: ch.key.toList

namespace Session

variable {config : Config} {s : Session Unit Unit}

theorem unmarked_nickAfter (hv : config.Valid) (h : ∀ w ∈ config.words, Command.Unmarked w) (refused : Nat) :
    Command.Unmarked (nickAfter config refused) := by
  obtain ⟨n, hn, -, ht⟩ := toList_nickAfter hv.nicks_ne refused
  have hu := h n (List.mem_append_left _ hn)
  have hne : n.toList ≠ [] := by
    intro he
    have hw := hv.nicks n hn
    rw [String.toList_eq_nil_iff.mp he] at hw
    exact absurd hw (by decide)
  rwa [Command.Unmarked, ht, List.head?_append_of_ne_nil _ hne]

theorem Says.unmarked (hv : config.Valid) (h : ∀ w ∈ config.words, Command.Unmarked w) {c : Command}
    (hc : Says config c) : ∀ w ∈ c.words, Command.Unmarked w := by
  cases hc with
  | nick refused => exact List.forall_mem_singleton.mpr (unmarked_nickAfter hv h refused)
  | user => exact List.forall_mem_singleton.mpr (h _ (List.mem_append_right _ List.mem_cons_self))
  | join hch =>
    intro w hw
    exact h w (List.mem_append_right _ (List.mem_cons_of_mem _ (List.mem_flatMap.mpr ⟨_, hch, hw⟩)))
  | pong => exact nofun

theorem process_params {t : Session Unit Unit} {b b' : Buffers} {ms : List Message} (h : s.process b = .ok (t, b', ms)) :
    ∀ m ∈ ms, lf ∉ m.params := by
  obtain ⟨⟨u, read, first⟩, ha, h⟩ := Fault.bind_eq_ok.mp h
  obtain ⟨-, -, rfl⟩ := by simpa [pure, Except.pure] using h
  exact (processAll_scanned ha).params

theorem words_survive_unless_marked (hv : config.validate = .ok ()) (hs : Reached config s) :
    -- of what is put into the ring, exactly the lines without such a word are read as they were meant
    (∀ write : Ring, write.WellFormed → ∃ kept, List.Sublist kept (greeting config s.ctx.attempt) ∧
      (s.greet write).2.toList = write.toList ++ kept.flatMap Command.encode ∧
      ∀ c ∈ kept, Says config c ∧ (c.Survives ↔ ∀ w ∈ c.words, Command.Unmarked w)) ∧
    (∀ b : Buffers, b.read.WellFormed → b.write.WellFormed → ∃ t b' ms kept, s.process b = .ok (t, b', ms) ∧
      List.Sublist kept (answers config s.ctx.attempt ms) ∧ b'.write.toList = b.write.toList ++ kept.flatMap Command.encode ∧
      ∀ c ∈ kept, Says config c ∧ (c.Survives ↔ ∀ w ∈ c.words, Command.Unmarked w)) ∧
    -- so all are, if no word of the configuration starts with a colon
    ((∀ w ∈ config.words, Command.Unmarked w) → ∀ c, Says config c → c.Survives) := by
  have hvalid := Config.validate_eq_ok_iff.mp hv
  have hready := hs.ready hvalid
  refine ⟨?_, ?_, ?_⟩
  · intro write hw
    obtain ⟨dropped, -, kept, hfits, -, hlist, -, -⟩ := hready.greet_flushed hvalid hw
    refine ⟨kept, hfits.sublist, hlist, fun c hc => ?_⟩
    have hsaid := greeting_said _ c (hfits.sublist.subset hc)
    exact ⟨hsaid, (hsaid.proper hvalid).survives_iff⟩
  · intro b hr hw
    obtain ⟨t, b', ms, said, dropped, hp, -, -, -, kept, hfits, -, hlist, -, -⟩ := hready.process_flushed hvalid hr hw
    refine ⟨t, b', ms, kept, hp, hfits.sublist, hlist, fun c hc => ?_⟩
    have hsaid := answers_said _ (process_params hp) c (hfits.sublist.subset hc)
    exact ⟨hsaid, (hsaid.proper hvalid).survives_iff⟩
  · intro hu c hsaid
    exact (hsaid.proper hvalid).survives_iff.mpr (hsaid.unmarked hvalid hu)

theorem words_survive_unless_marked_of_terse :
    terse.validate = .ok () ∧ ∀ c, Says terse c → c.Survives := by
  have hv : terse.validate = .ok () := by decide +kernel
  exact ⟨hv, (words_survive_unless_marked hv .created).2.2 (by decide +kernel)⟩

theorem marked_login_swallows_the_rest :
    let config := { terse with identity := { terse.identity with login := ":ebot" } }
    let sent := Command.user ":ebot" "Example Bot"
    config.validate = .ok () ∧
      ((Session.create config () : Session Unit Unit).greet ⟨Array.replicate 64 0, 0, 0, 0⟩).2.toList =
        (Command.nick "bot").encode ++ sent.encode ∧
      ∃ m, Message.parse sent.encode = .ok (m, sent.encode.length) ∧
        (Message.Params.split m.params).all = [ofText "ebot 8 * :Example Bot"] ∧
        sent.meant = [ofText ":ebot", ofText "8", ofText "*", ofText "Example Bot"] := by
  have hsendable : (Command.user ":ebot" "Example Bot").Sendable := by decide
  refine ⟨by decide +kernel, by decide +kernel, _, hsendable.parse_encode [], ?_, rfl⟩
  have hargs : (Command.user ":ebot" "Example Bot").args.getD [] = colon :: ofText "ebot 8 * :Example Bot" := by
    decide +kernel
  rw [hargs, Message.Params.split_colon]
  rfl

end Session

end IrcLink
