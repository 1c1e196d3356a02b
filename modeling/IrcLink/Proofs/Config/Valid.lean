import IrcLink.Config
import IrcLink.Proofs.Text.Utf8

/-!
What a configuration has to be like to be accepted, and what the bytes are like that its texts go out as.
-/

namespace IrcLink

open Bytes

namespace Config

variable {α : Type}

theorem andThen_eq_ok {x : Except Invalid Unit} {y : Unit → Except Invalid Unit} :
    (x >>= y) = .ok () ↔ x = .ok () ∧ y () = .ok () := by
  cases x <;> simp [bind, Except.bind]

theorem throwIf_eq_ok {p : Prop} [Decidable p] {e : Invalid} {rest : Unit → Except Invalid Unit} :
    (if p then (throw e : Except Invalid Unit) >>= rest else rest ()) = .ok () ↔ ¬ p ∧ rest () = .ok () := by
  by_cases h : p <;> simp [h, throw, throwThe, MonadExceptOf.throw, bind, Except.bind]

theorem forM_eq_ok {f : α → Except Invalid Unit} {l : List α} : l.forM f = .ok () ↔ ∀ a ∈ l, f a = .ok () := by
  induction l with
  | nil => exact ⟨fun _ => nofun, fun _ => rfl⟩
  | cons a l ih =>
    rw [List.forall_mem_cons, ← ih]
    exact andThen_eq_ok

theorem requireWord_eq_ok {setting value : String} : requireWord setting value = .ok () ↔ isWord value = true := by
  unfold requireWord
  split <;> simp_all

theorem requireText_eq_ok {setting value : String} : requireText setting value = .ok () ↔ isText value = true := by
  unfold requireText
  split <;> simp_all

theorem requireChannel_eq_ok {c : Channel} :
    requireChannel c = .ok () ↔ isWord c.name = true ∧ ∀ k ∈ c.key, isWord k = true := by
  rw [requireChannel, andThen_eq_ok, requireWord_eq_ok]
  apply and_congr_right'
  cases c.key with
  | none => exact ⟨fun _ => nofun, fun _ => rfl⟩
  | some k =>
    change requireWord "channels.key" k = .ok () ↔ _
    rw [requireWord_eq_ok]
    simp

structure Valid (c : Config) : Prop where
  host : ¬ c.server.host.toList.all CharClass.isWhiteSpace = true
  nicks_ne : c.identity.nicks ≠ []
  nicks : ∀ n ∈ c.identity.nicks, isWord n = true
  login : isWord c.identity.login = true
  name : isText c.identity.name = true
  channels : ∀ ch ∈ c.channels, isWord ch.name = true ∧ ∀ k ∈ ch.key, isWord k = true
  buffer : c.tuning.bufferSize ≠ 0

theorem validate_eq_ok_iff {c : Config} : c.validate = .ok () ↔ c.Valid := by
  have hbuffer : ((if c.tuning.bufferSize = 0 then throw .zeroBuffer else pure ()) : Except Invalid Unit) = .ok () ↔
      c.tuning.bufferSize ≠ 0 := by
    by_cases h : c.tuning.bufferSize = 0 <;> simp [h, throw, throwThe, MonadExceptOf.throw, pure, Except.pure]
  simp only [validate, throwIf_eq_ok, andThen_eq_ok, forM_eq_ok, requireWord_eq_ok, requireText_eq_ok,
    requireChannel_eq_ok, hbuffer]
  constructor
  · rintro ⟨hhost, hne, hnicks, hlogin, hname, hchannels, hsize⟩
    exact ⟨hhost, hne, hnicks, hlogin, hname, hchannels, hsize⟩
  · rintro ⟨hhost, hne, hnicks, hlogin, hname, hchannels, hsize⟩
    exact ⟨hhost, hne, hnicks, hlogin, hname, hchannels, hsize⟩

theorem isText_of_isWord {s : String} (h : isWord s = true) : isText s = true := by
  simp only [isWord, isText, Bool.and_eq_true, List.all_eq_true, Bool.not_eq_true', Bool.or_eq_false_iff] at h ⊢
  intro c hc
  exact (h.2 c hc).2

theorem isWord_of_toList {s t : String} {more : List Char} (hs : isWord s = true) (ht : t.toList = s.toList ++ more)
    (he : ∀ c ∈ more, c = '_') : isWord t = true := by
  simp only [isWord, Bool.and_eq_true, decide_eq_true_iff, List.all_eq_true, ht] at hs ⊢
  obtain ⟨hne, hall⟩ := hs
  constructor
  · rintro rfl
    exact hne (String.toList_eq_nil_iff.mp (List.append_eq_nil_iff.mp ht.symm).1)
  · intro c hc
    obtain hc | hc := List.mem_append.mp hc
    · exact hall c hc
    · obtain rfl := he c hc
      decide

theorem space_notMem_of_isWord {s : String} (h : isWord s = true) : ' ' ∉ s.toList := by
  simp only [isWord, Bool.and_eq_true, List.all_eq_true] at h
  intro hm
  exact absurd (h.2 ' ' hm) (by decide)

theorem newline_notMem_of_isText {s : String} (h : isText s = true) : '\n' ∉ s.toList := by
  simp only [isText, List.all_eq_true] at h
  intro hm
  exact absurd (h '\n' hm) (by decide)

theorem printable_of_isText {s : String} (h : isText s = true) {b : UInt8} (hb : b ∈ ofText s) :
    0x20 ≤ b.toNat ∧ b.toNat ≠ 0x7F := by
  by_cases hlt : b.toNat < 0x80
  · obtain ⟨c, hc, hcb⟩ := Utf8.exists_char_of_mem hb hlt
    have hcontrol := List.all_eq_true.mp h c hc
    rw [Bool.not_eq_true', CharClass.isControl, hcb] at hcontrol
    simp only [Bool.or_eq_false_iff, Bool.and_eq_false_iff, decide_eq_false_iff_not] at hcontrol
    omega
  · omega

end Config

end IrcLink
