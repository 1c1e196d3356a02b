import IrcLink.Proofs.Session.Nicks
import Mathlib.Data.Finset.Prod
import Mathlib.Data.Finset.Card
import Mathlib.Data.Nat.Find

/-!
Nicks that are taken. At one place of the list no two passes offer the same nick, so each nick that is taken is offered at most
once for every place, and after so many refusals a nick must be free, whatever the list is.
-/

namespace IrcLink

open Bytes

namespace Session

variable {config : Config} {s : Session Unit Unit} {taken : Finset String} {offered : List String} {refused : Nat}

section

variable (hn : config.identity.nicks ≠ [])

include hn

theorem nickAfter_add_length (k : Nat) :
    nickAfter config (k + config.identity.nicks.length) = nickAfter config k ++ "_" := by
  obtain ⟨n, -, hget, hk⟩ := toList_nickAfter hn k
  obtain ⟨n', -, hget', hk'⟩ := toList_nickAfter hn (k + config.identity.nicks.length)
  rw [Nat.add_mod_right, hget] at hget'
  obtain rfl := Option.some.inj hget'
  rw [← String.toList_inj, hk', String.toList_append, hk, Nat.add_div_right _ (List.length_pos_iff.mpr hn),
    List.replicate_succ', List.append_assoc]
  rfl

theorem nickAfter_inj_of_mod_eq {j k : Nat}
    (hmod : j % config.identity.nicks.length = k % config.identity.nicks.length)
    (h : nickAfter config j = nickAfter config k) : j = k := by
  obtain ⟨n, -, hget, hj⟩ := toList_nickAfter hn j
  obtain ⟨n', -, hget', hk⟩ := toList_nickAfter hn k
  rw [hmod, hget'] at hget
  obtain rfl := Option.some.inj hget
  rw [h, hk, List.append_cancel_left_eq, List.replicate_inj] at hj
  rw [← Nat.div_add_mod j, hmod, ← hj.1, Nat.div_add_mod]

theorem card_taken_le (attempts : Finset Nat) (h : ∀ k ∈ attempts, nickAfter config k ∈ taken) :
    attempts.card ≤ config.identity.nicks.length * taken.card := by
  have hmaps : ∀ k ∈ attempts, (k % config.identity.nicks.length, nickAfter config k) ∈
      Finset.range config.identity.nicks.length ×ˢ taken := by
    intro k hk
    rw [Finset.mem_product, Finset.mem_range]
    exact ⟨Nat.mod_lt _ (List.length_pos_iff.mpr hn), h k hk⟩
  have hinj : Set.InjOn (fun k => (k % config.identity.nicks.length, nickAfter config k)) attempts := by
    intro j _ k _ heq
    obtain ⟨hmod, hnick⟩ := Prod.mk.inj heq
    exact nickAfter_inj_of_mod_eq hn hmod hnick
  calc attempts.card
      ≤ (Finset.range config.identity.nicks.length ×ˢ taken).card := Finset.card_le_card_of_injOn _ hmaps hinj
    _ = config.identity.nicks.length * taken.card := by rw [Finset.card_product, Finset.card_range]

theorem refused_le (h : ∀ k < refused, nickAfter config k ∈ taken) :
    refused ≤ config.identity.nicks.length * taken.card := by
  rw [← Finset.card_range refused]
  exact card_taken_le hn _ fun k hk => h k (Finset.mem_range.mp hk)

theorem exists_first_free (taken : Finset String) :
    ∃ k, nickAfter config k ∉ taken ∧ ∀ j < k, nickAfter config j ∈ taken := by
  have hfree : ∃ k, nickAfter config k ∉ taken := by
    by_contra hall
    push Not at hall
    exact absurd (refused_le hn fun k _ => hall k) (Nat.not_succ_le_self _)
  exact ⟨Nat.find hfree, Nat.find_spec hfree, fun j hj => not_not.mp (Nat.find_min hfree hj)⟩

end

/-- What was offered over a link, and how often it was refused. The server refuses only what is taken, and no more often than that
was offered. -/
inductive Registering (config : Config) (taken : Finset String) : List String → Nat → Session Unit Unit → Prop
  | greeted {s : Session Unit Unit} {write : Ring} (h : Of config s) (hw : write.WellFormed) :
      Registering config taken ((s.reset.greetSending write).sent.filterMap Command.nick?) 0 (s.reset.greet write).1
  | processed {offered : List String} {refused : Nat} {s t : Session Unit Unit} {b b' : Buffers} {ms : List Message}
      {c : Sending} (h : Registering config taken offered refused s) (hr : b.read.WellFormed) (hw : b.write.WellFormed)
      (hp : s.process b = .ok (t, b', ms)) (hc : s.processSending b = .ok (t, c))
      (hserver : refused + refusals ms ≤ offered.countP (· ∈ taken)) :
      Registering config taken (offered ++ c.sent.filterMap Command.nick?) (refused + refusals ms) t

theorem countP_offered (h : ∀ k < refused, nickAfter config k ∈ taken) :
    ((List.range (refused + 1)).map (nickAfter config)).countP (· ∈ taken) =
      refused + if nickAfter config refused ∈ taken then 1 else 0 := by
  have hearlier : ((List.range refused).map (nickAfter config)).countP (· ∈ taken) = refused := by
    rw [List.countP_eq_length.mpr, List.length_map, List.length_range]
    intro n hmem
    obtain ⟨k, hk, rfl⟩ := List.mem_map.mp hmem
    exact decide_eq_true (h k (List.mem_range.mp hk))
  rw [List.range_succ, List.map_append, List.countP_append, hearlier, List.map_singleton, List.countP_singleton]
  simp only [decide_eq_true_eq]

structure Rotated (config : Config) (taken : Finset String) (offered : List String) (refused : Nat)
    (s : Session Unit Unit) : Prop where
  between : ∃ tail, Between config refused tail s
  offered_eq : offered = (List.range (refused + 1)).map (nickAfter config)
  were_taken : ∀ k < refused, nickAfter config k ∈ taken

theorem Registering.rotated (h : Registering config taken offered refused s) : Rotated config taken offered refused s := by
  induction h with
  | @greeted s write h hw =>
    have hb := h.between_reset
    refine ⟨⟨[], hb.greet write⟩, ?_, fun k hk => absurd hk (Nat.not_lt_zero k)⟩
    rw [(hb.greetSending hw).1]
    rfl
  | @processed offered refused s t b b' ms c _ hr hw hp hc hserver ih =>
    obtain ⟨tail, hb⟩ := ih.between
    obtain ⟨hsent, ht⟩ := hb.of_process hr hw hp hc
    refine ⟨ht, ?_, fun k hk => ?_⟩
    · have hrange (n : Nat) : List.range (refused + 1) ++ List.range' (refused + 1) n = List.range (refused + n + 1) := by
        have happend := @List.range'_append_1 0 (refused + 1) n
        rwa [Nat.zero_add, ← List.range_eq_range', ← List.range_eq_range', Nat.add_right_comm] at happend
      rw [ih.offered_eq, hsent, answers_nicks, ← List.map_append, hrange]
    · -- at most one more was refused, and only the one that was offered last
      rw [ih.offered_eq, countP_offered ih.were_taken] at hserver
      obtain hlt | hge := Nat.lt_or_ge k refused
      · exact ih.were_taken k hlt
      · split_ifs at hserver with hlast
        · obtain rfl : k = refused := by omega
          exact hlast
        · omega

def refusal : Buffers := ⟨loaded (ofText "433 *\r\n"), loaded []⟩

theorem Between.refusal (h : Between config refused [] s) :
    ∃ t b' ms c, s.process refusal = .ok (t, b', ms) ∧ s.processSending refusal = .ok (t, c) ∧ refusals ms = 1 ∧
      Between config (refused + 1) [] t := by
  obtain ⟨t, c, b', kept, hp, hc, -, -, -, -, hkept, ht⟩ :=
    h.process (b := Session.refusal) (loaded_wellFormed _) (loaded_wellFormed _)
  have hlines : lines ([] ++ Session.refusal.read.toList) = ([ofText "433 *\r"], []) := by decide +kernel
  rw [hlines] at hkept ht
  obtain rfl := hkept.eq_of_short (by decide)
  have hone : refusals ([ofText "433 *\r"].filterMap Message.ofTerminated?) = 1 := by decide +kernel
  rw [hone] at ht
  exact ⟨t, b', _, c, hp, hc, hone, ht⟩

theorem registering_of_taken (h : ∀ k < refused, nickAfter config k ∈ taken) :
    ∃ offered s, Registering config taken offered refused s ∧ Between config refused [] s := by
  induction refused with
  | zero =>
    have hof := Of.create config
    exact ⟨_, _, .greeted hof (loaded_wellFormed []), hof.between_reset.greet (loaded [])⟩
  | succ refused ih =>
    obtain ⟨offered, s, hs, hb⟩ := ih fun k hk => h k (Nat.lt_succ_of_lt hk)
    obtain ⟨t, b', ms, c, hp, hc, hone, ht⟩ := hb.refusal
    have hserver : refused + refusals ms ≤ offered.countP (· ∈ taken) := by
      rw [hs.rotated.offered_eq, countP_offered hs.rotated.were_taken, if_pos (h refused (Nat.lt_succ_self refused)), hone]
    have hnext := hs.processed (loaded_wellFormed _) (loaded_wellFormed _) hp hc hserver
    rw [hone] at hnext
    exact ⟨_, t, hnext, ht⟩

theorem rotation_escapes (hn : config.identity.nicks ≠ []) (taken : Finset String) :
    -- a pass through the list makes each nick longer, and no nick comes twice at one place
    (∀ k, nickAfter config (k + config.identity.nicks.length) = nickAfter config k ++ "_") ∧
    (∀ j k, j % config.identity.nicks.length = k % config.identity.nicks.length →
      nickAfter config j = nickAfter config k → j = k) ∧
    (∀ offered refused s, Registering config taken offered refused s →
      offered = (List.range (refused + 1)).map (nickAfter config) ∧ (∀ k < refused, nickAfter config k ∈ taken) ∧
      refused ≤ config.identity.nicks.length * taken.card ∧
      -- there is nothing more to refuse exactly when the last nick is free
      (offered.countP (· ∈ taken) = refused ↔ nickAfter config refused ∉ taken) ∧
      -- whatever comes next is looked at
      ∀ b : Buffers, b.read.WellFormed → b.write.WellFormed →
        ∃ t b' ms c, s.process b = .ok (t, b', ms) ∧ s.processSending b = .ok (t, c)) ∧
    -- and it comes to this
    ∃ offered refused s, Registering config taken offered refused s ∧
      refused ≤ config.identity.nicks.length * taken.card ∧ nickAfter config refused ∉ taken := by
  refine ⟨nickAfter_add_length hn, fun _ _ => nickAfter_inj_of_mod_eq hn, fun offered refused s hs => ?_, ?_⟩
  · obtain ⟨⟨tail, hb⟩, hoffered, htaken⟩ := hs.rotated
    refine ⟨hoffered, htaken, refused_le hn htaken, ?_, ?_⟩
    · rw [hoffered, countP_offered htaken]
      split_ifs with hlast <;> simp [hlast]
    · intro b hr hw
      obtain ⟨t, c, b', kept, hp, hc, -⟩ := hb.process hr hw
      exact ⟨t, b', _, c, hp, hc⟩
  · obtain ⟨refused, hfree, htaken⟩ := exists_first_free hn taken
    obtain ⟨offered, s, hs, -⟩ := registering_of_taken htaken
    exact ⟨offered, refused, s, hs, refused_le hn htaken, hfree⟩

def stubborn : Config := ⟨⟨"host", 6667⟩, ⟨["bot", "bot"], "bot", "bot"⟩, [], {}, {}⟩

theorem rotation_escapes_of_stubborn :
    stubborn.identity.nicks ≠ [] ∧ ∃ offered s, Registering stubborn {"bot", "bot_"} offered (2 * 2) s ∧
      offered = ["bot", "bot", "bot_", "bot_", "bot__"] := by
  have hn : stubborn.identity.nicks ≠ [] := by decide
  obtain ⟨-, -, hrun, offered, refused, s, hs, hle, hfree⟩ := rotation_escapes hn {"bot", "bot_"}
  have htaken : ∀ k < 4, nickAfter stubborn k ∈ ({"bot", "bot_"} : Finset String) := by decide +kernel
  have hfour : 4 ≤ refused := by
    by_contra hlt
    exact hfree (htaken refused (by omega))
  obtain rfl : refused = 4 := Nat.le_antisymm (hle.trans (by decide +kernel)) hfour
  exact ⟨hn, offered, s, hs, (hrun _ _ _ hs).1.trans (by decide +kernel)⟩

end Session

end IrcLink
