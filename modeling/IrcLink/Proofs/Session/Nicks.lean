import IrcLink.Proofs.Session.Replies

/-!
The nicks that are offered over a link. A refusal moves the session on by one place in the list; behind the last nick it
begins again with the first and one more underscore. If the last nick is the first one with an underscore, these two are the
same, and the nick that was just refused is offered again.
-/

namespace IrcLink

open Bytes

def Command.nick? : Command → Option String
  | nick n => some n
  | _ => none

def Notice.refusal? : Notice → Option (String × String)
  | nickInUse taken next => some (taken, next)
  | _ => none

namespace Session

variable {config : Config} {s t : Session Unit Unit} {ms : List Message} {sent : List Command} {said : List Notice}

theorem nickAfter_succ_eq_iff (hne : config.identity.nicks ≠ []) (hn : config.identity.nicks.Nodup) (k : Nat) :
    nickAfter config (k + 1) = nickAfter config k ↔
      config.identity.nicks.length ∣ k + 1 ∧ ∃ first last, config.identity.nicks.head? = some first ∧
        config.identity.nicks.getLast? = some last ∧ last = first ++ "_" := by
  have hpos := List.length_pos_iff.mpr hne
  obtain ⟨n, -, hget, hk⟩ := toList_nickAfter hne k
  obtain ⟨n', -, hget', hk'⟩ := toList_nickAfter hne (k + 1)
  rw [← String.toList_inj, hk, hk']
  by_cases hd : config.identity.nicks.length ∣ k + 1
  · -- from the last nick to the first
    have hfirst : config.identity.nicks.head? = some n' := by
      rw [← hget', Nat.mod_eq_zero_of_dvd hd, List.head?_eq_getElem?]
    have hlast : config.identity.nicks.getLast? = some n := by
      rw [← hget, List.getLast?_eq_getElem?]
      obtain ⟨l, hl⟩ := Nat.exists_eq_add_one.mpr hpos
      rw [hl] at hd ⊢
      rw [Nat.succ_mod_succ_eq_zero_iff.mp (Nat.mod_eq_zero_of_dvd hd), Nat.add_sub_cancel]
    have hsame : n = n' ++ "_" ↔ n.toList = n'.toList ++ ['_'] := by
      rw [← String.toList_inj, String.toList_append]
      rfl
    rw [Nat.succ_div_of_dvd hd, List.replicate_succ, List.append_cons, List.append_cancel_right_eq, eq_comm, ← hsame]
    constructor
    · exact fun h => ⟨hd, n', n, hfirst, hlast, h⟩
    · rintro ⟨-, first, last, hf, hl, rfl⟩
      rw [hfirst] at hf
      rw [hlast] at hl
      rw [Option.some.inj hf, Option.some.inj hl]
  · -- two nicks of one pass
    rw [Nat.succ_div_of_not_dvd hd, List.append_cancel_right_eq, String.toList_inj]
    constructor
    · rintro rfl
      have hplace := (List.getElem?_inj (Nat.mod_lt _ hpos) hn).mp (hget'.trans hget.symm)
      have hone := Nat.dvd_of_mod_eq_zero (Nat.sub_mod_eq_zero_of_mod_eq hplace)
      rw [Nat.add_sub_cancel_left] at hone
      exact absurd (Nat.dvd_trans hone (Nat.one_dvd _)) hd
    · exact fun h => absurd h.1 hd

/-- So many refusals, the first of them after so many others. -/
def turnedDown (config : Config) (refused n : Nat) : List (String × String) :=
  (List.range' refused n).map fun k => (nickAfter config k, nickAfter config (k + 1))

theorem turnedDown_append (config : Config) (refused m n : Nat) :
    turnedDown config refused m ++ turnedDown config (refused + m) n = turnedDown config refused (m + n) := by
  rw [turnedDown, turnedDown, turnedDown, ← List.map_append, List.range'_append_1]

theorem answer_nicks (config : Config) (refused : Nat) (m : Message) :
    (answer config refused m).filterMap Command.nick? =
      (List.range' (refused + 1) (refusals [m])).map (nickAfter config) := by
  rw [refusals_singleton, answer]
  by_cases hrefused : m.command = ofText "433"
  · rw [hrefused, if_neg (by decide), if_neg (by decide), if_pos rfl, if_pos rfl]
    rfl
  · rw [if_neg hrefused, if_neg hrefused]
    split_ifs <;> simp [Command.nick?]

theorem answers_nicks (config : Config) (refused : Nat) (ms : List Message) :
    (answers config refused ms).filterMap Command.nick? =
      (List.range' (refused + 1) (refusals ms)).map (nickAfter config) := by
  induction ms generalizing refused with
  | nil => rfl
  | cons m ms ih =>
    have hcount := refusals_append [m] ms
    rw [List.singleton_append] at hcount
    rw [answers, List.filterMap_append, answer_nicks, ih, ← List.map_append, hcount, Nat.add_right_comm refused,
      List.range'_append_1]

theorem remark_refusals (config : Config) (refused : Nat) (m : Message) :
    (remark config refused m).filterMap Notice.refusal? = turnedDown config refused (refusals [m]) := by
  rw [refusals_singleton, remark]
  by_cases hrefused : m.command = ofText "433"
  · rw [hrefused, if_neg (by decide), if_neg (by decide), if_pos rfl, if_pos rfl]
    rfl
  · rw [if_neg hrefused, if_neg hrefused]
    split_ifs <;> rfl

theorem process_refuses {b b' : Buffers} (hs : Of config s) (hp : s.process b = .ok (t, b', ms)) :
    Tells Notice.refusal? s t (turnedDown config s.ctx.attempt (refusals ms)) := by
  refine process_tells (l := fun ms => turnedDown config s.ctx.attempt (refusals ms)) (fun _ => rfl) rfl ?_
    (fun _ _ => rfl) hs hp
  intro ms m
  rw [remark_refusals, turnedDown_append, refusals_append]

def saidSince {σ υ : Type} (s t : Session σ υ) : List Notice := t.ctx.notices.drop s.ctx.notices.length

theorem Tells.saidSince {α : Type} {f : Notice → Option α} {l : List α} (h : Tells f s t l) :
    (saidSince s t).filterMap f = l := by
  obtain ⟨said, hs, rfl⟩ := h
  rw [Session.saidSince, hs, List.drop_left]

/-- Since the link was made these messages have come, and this was sent and said. What was said is read now and then. -/
inductive OnLink (config : Config) : List Message → List Command → List Notice → Session Unit Unit → Prop
  | greeted {s : Session Unit Unit} {write : Ring} (h : Reached config s) (hw : write.WellFormed) :
      OnLink config [] (s.reset.greetSending write).sent (saidSince s.reset (s.reset.greet write).1)
        (s.reset.greet write).1
  | processed {ms more : List Message} {sent : List Command} {said : List Notice} {s t : Session Unit Unit}
      {b b' : Buffers} {c : Sending} (h : OnLink config ms sent said s) (hr : b.read.WellFormed)
      (hw : b.write.WellFormed) (hp : s.process b = .ok (t, b', more)) (hc : s.processSending b = .ok (t, c)) :
      OnLink config (ms ++ more) (sent ++ c.sent) (said ++ saidSince s t) t
  | told {ms : List Message} {sent : List Command} {said : List Notice} {s : Session Unit Unit}
      (h : OnLink config ms sent said s) : OnLink config ms sent said { s with ctx := { s.ctx with notices := [] } }

structure Stands (config : Config) (ms : List Message) (sent : List Command) (said : List Notice)
    (s : Session Unit Unit) : Prop where
  between : ∃ tail, Between config (refusals ms) tail s
  sent_eq : sent = greeting config 0 ++ answers config 0 ms
  said_eq : said.filterMap Notice.refusal? = turnedDown config 0 (refusals ms)

theorem OnLink.stands (hv : config.Valid) (h : OnLink config ms sent said s) : Stands config ms sent said s := by
  induction h with
  | @greeted s write h hw =>
    have hb := (h.ready hv).of.between_reset
    constructor
    · exact ⟨[], hb.greet write⟩
    · rw [(hb.greetSending hw).1]
      exact (List.append_nil _).symm
    · exact Tells.saidSince (writeOutbox_tells (fun _ _ => rfl) _ write)
  | @processed ms more sent said s t b b' c _ hr hw hp hc ih =>
    obtain ⟨tail, hb⟩ := ih.between
    obtain ⟨hsent, ht⟩ := hb.of_process hr hw hp hc
    have hrefuses := process_refuses hb.of hp
    rw [hb.attempt] at hrefuses
    constructor
    · rw [refusals_append]
      exact ht
    · rw [ih.sent_eq, hsent, answers_append, Nat.zero_add, List.append_assoc]
    · rw [List.filterMap_append, ih.said_eq, hrefuses.saidSince, refusals_append, ← turnedDown_append, Nat.zero_add]
  | told _ ih =>
    obtain ⟨tail, hof, hattempt, houtbox, hwaits, hunended⟩ := ih.between
    exact ⟨⟨tail, ⟨hof.dispatcher, hof.identity, hof.channels⟩, hattempt, houtbox, hwaits, hunended⟩, ih.sent_eq,
      ih.said_eq⟩

/-- Over a link the nicks are offered in their order, each because the one before was refused. A refused nick is offered again
exactly where the list begins anew and its last nick is the first with an underscore. -/
theorem nick_is_offered_again_iff (hv : config.validate = .ok ()) (hn : config.identity.nicks.Nodup)
    (hl : OnLink config ms sent said s) :
    sent.filterMap Command.nick? = (List.range (refusals ms + 1)).map (nickAfter config) ∧
    said.filterMap Notice.refusal? =
      (List.range (refusals ms)).map (fun k => (nickAfter config k, nickAfter config (k + 1))) ∧
    (∀ k, nickAfter config (k + 1) = nickAfter config k ↔
      config.identity.nicks.length ∣ k + 1 ∧ ∃ first last, config.identity.nicks.head? = some first ∧
        config.identity.nicks.getLast? = some last ∧ last = first ++ "_") ∧
    -- whatever comes next is looked at
    ∀ b : Buffers, b.read.WellFormed → b.write.WellFormed →
      ∃ t b' more c, s.process b = .ok (t, b', more) ∧ s.processSending b = .ok (t, c) := by
  have hvalid := Config.validate_eq_ok_iff.mp hv
  obtain ⟨⟨tail, hb⟩, hsent, hsaid⟩ := hl.stands hvalid
  refine ⟨?_, ?_, nickAfter_succ_eq_iff hvalid.nicks_ne hn, ?_⟩
  · have hgreeting : (greeting config 0).filterMap Command.nick? = [nickAfter config 0] := rfl
    rw [hsent, List.filterMap_append, hgreeting, answers_nicks, List.range_eq_range', List.range'_succ]
    rfl
  · rw [hsaid, turnedDown, List.range_eq_range']
  · intro b hr hw
    obtain ⟨t, c, b', kept, hp, hc, -⟩ := hb.process hr hw
    exact ⟨t, b', _, c, hp, hc⟩

def underscored : Config := ⟨⟨"irc.libera.chat", 6667⟩, ⟨["rpbot", "rpbot_"], "rpbot", "rpbot"⟩, [], {}, {}⟩

theorem underscored_valid : underscored.validate = .ok () := by decide +kernel

theorem underscored_refused_twice : ∃ ms sent said s, OnLink underscored ms sent said s ∧ refusals ms = 2 := by
  let b : Buffers := ⟨loaded (ofText "433 *\r\n433 *\r\n"), loaded []⟩
  have hr : b.read.WellFormed := loaded_wellFormed _
  have hw : b.write.WellFormed := loaded_wellFormed _
  have heval : (((create underscored () : Session Unit Unit).reset.greet b.write).1.process b).map
      (fun p => refusals p.2.2) = .ok 2 := by decide +kernel
  have hgreeted := OnLink.greeted (.created : Reached underscored _) hw
  obtain ⟨⟨tail, hb⟩, -, -⟩ := hgreeted.stands (Config.validate_eq_ok_iff.mp underscored_valid)
  obtain ⟨t, c, b', kept, hp, hc, -⟩ := hb.process hr hw
  rw [hp] at heval
  exact ⟨_, _, _, t, hgreeted.processed hr hw hp hc, Except.ok.inj heval⟩

theorem nick_is_offered_again_iff_of_underscored :
    ∃ ms sent said s, underscored.validate = .ok () ∧ underscored.identity.nicks.Nodup ∧
      OnLink underscored ms sent said s ∧ sent.filterMap Command.nick? = ["rpbot", "rpbot_", "rpbot_"] ∧
      said.filterMap Notice.refusal? = [("rpbot", "rpbot_"), ("rpbot_", "rpbot_")] ∧
      underscored.identity.nicks.length ∣ 2 ∧ underscored.identity.nicks.head? = some "rpbot" ∧
      underscored.identity.nicks.getLast? = some ("rpbot" ++ "_") := by
  obtain ⟨ms, sent, said, s, hl, htwice⟩ := underscored_refused_twice
  have hn : underscored.identity.nicks.Nodup := by decide
  obtain ⟨hsent, hsaid, hagain, -⟩ := nick_is_offered_again_iff underscored_valid hn hl
  rw [htwice] at hsent hsaid
  have hsame : nickAfter underscored 2 = nickAfter underscored 1 := by decide +kernel
  obtain ⟨hd, first, last, hfirst, hlast, rfl⟩ := (hagain 1).mp hsame
  obtain rfl := Option.some.inj hfirst
  exact ⟨ms, sent, said, s, underscored_valid, hn, hl, hsent.trans (by decide +kernel), hsaid.trans (by decide +kernel), hd,
    hfirst, hlast⟩

theorem refused_nick_is_offered_again :
    ¬∀ config ms sent said s, config.validate = .ok () → config.identity.nicks.Nodup → OnLink config ms sent said s →
      ∀ refusal ∈ said.filterMap Notice.refusal?, refusal.2 ≠ refusal.1 := by
  intro hall
  obtain ⟨ms, sent, said, s, hl, htwice⟩ := underscored_refused_twice
  have hsaid := (hl.stands (Config.validate_eq_ok_iff.mp underscored_valid)).said_eq
  rw [htwice] at hsaid
  have hagain := hall underscored ms sent said s underscored_valid (by decide) hl
  rw [hsaid] at hagain
  exact absurd hagain (by decide +kernel)

end Session

end IrcLink
