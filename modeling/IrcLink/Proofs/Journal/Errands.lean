import IrcLink.Proofs.Journal.Traffic

/-!
Ways from one world to another, by calls and entries of the engine with other threads acting in between. `Does` tells what
a way leaves in the journal; a way itself also tells how much time it takes, and that only a wait takes any. Most ways have
nothing to do with lookups (`Calls`): on them none is asked for, and no result is collected.
-/

namespace IrcLink

namespace Event

def isErrand : Event → Bool
  | .call (.wait _ _) _ => false
  | .call .wake _ => false
  | .call _ _ => true
  | _ => false

/-- A call on a socket that is not watched yet, or is let go. -/
def isUnwatched : Event → Bool
  | .call (.openSocket _) _ => true
  | .call (.setNonBlocking _) _ => true
  | .call (.setNoDelay _) _ => true
  | .call (.connect _ _) _ => true
  | .call (.deregister _) _ => true
  | .call (.close _) _ => true
  | _ => false

theorem isErrand_of_isUnwatched {e : Event} (h : e.isUnwatched = true) : e.isErrand = true := by
  unfold isUnwatched at h
  split at h
  all_goals first | rfl | simp at h

def isRegistration : Event → Bool
  | .call (.register _ _ _) (.ok _) => true
  | _ => false

theorem isRegistration_of_isUnwatched {e : Event} (h : e.isUnwatched = true) : e.isRegistration = false := by
  unfold isUnwatched at h
  split at h
  all_goals first | rfl | simp at h

theorem isErrand_of_stream {e : Event} {s : Socket} (h : e.stream? = some s) : e.isErrand = true := by
  unfold stream? at h
  split at h
  · rfl
  · rfl
  · simp at h

theorem dialled_of_isErrand {e : Event} (h : e.isErrand = true) : e.dialled? = none := by
  cases e with
  | dialled a => simp [isErrand] at h
  | _ => rfl

theorem dialled_of_foreign {e : Event} (h : e.isForeign = true) : e.dialled? = none := by
  cases e with
  | dialled a => simp [isForeign] at h
  | _ => rfl

theorem asked_of_foreign {e : Event} (h : e.isForeign = true) : e.asked? = none := by
  cases e with
  | asked l r => simp [isForeign] at h
  | _ => rfl

theorem waitTimeout_of_isErrand {e : Event} (h : e.isErrand = true) : e.waitTimeout? = none := by
  cases e with
  | call c a => cases c <;> first | rfl | simp [isErrand] at h
  | _ => rfl

end Event

namespace World

variable {ω : Type} {S : System ω} {P Q : Event → Prop} {w w' w'' : World ω}

inductive Via (S : System ω) (P : Event → Prop) (w : World ω) : World ω → Prop
  | refl : Via S P w w
  | call {w' : World ω} (h : Via S P w w') {c : Call} (hc : c ≠ .wake) (hP : P (.call c (w'.call S c).1)) :
      Via S P w (w'.call S c).2
  | record {w' : World ω} (h : Via S P w w') {e : Event} (he : e.isForeign = false) (hP : P e) :
      Via S P w (w'.record S e)
  | look {w' : World ω} (h : Via S P w w') : Via S P w (w'.letOthersAct S none)
  | keep {w' w'' : World ω} (h : Via S P w w') (hos : w''.os = w'.os) (hj : w''.journal = w'.journal) : Via S P w w''

namespace Via

theorem trans (h : Via S P w w') (h' : Via S P w' w'') : Via S P w w'' := by
  induction h' with
  | refl => exact h
  | call _ hc hP ih => exact ih.call hc hP
  | record _ he hP ih => exact ih.record he hP
  | look _ ih => exact ih.look
  | keep _ hos hj ih => exact ih.keep hos hj

theorem only (h : Via S P w w') : Only P w w' := by
  induction h with
  | refl => exact .refl w
  | call _ hc hP ih => exact ih.trans (.of_does (call_does S _ hc) hP)
  | record _ he hP ih => exact ih.trans (.of_does (record_does S _ he) hP)
  | look _ ih => exact ih.trans (.of_does_nil (letOthersAct_does S _ none))
  | keep _ _ hj ih => exact ih.trans (.of_does_nil (.of_journal_eq hj))

theorem of_call {c : Call} (hc : c ≠ .wake) (hP : P (.call c (w.call S c).1)) : Via S P w (w.call S c).2 :=
  Via.refl.call hc hP

end Via

section

variable (S : System ω) (w : World ω)

theorem takeStop_via (hP : ∀ stop, P (.looked stop)) : w.Via S P (w.takeStop S).2 := by
  have hl : w.Via S P (w.letOthersAct S none) := Via.refl.look
  have hk : w.Via S P { w.letOthersAct S none with shared := { (w.letOthersAct S none).shared with stop := false } } :=
    hl.keep rfl rfl
  exact hk.record rfl (hP _)

theorem collect_none {w w' : World ω} (h : w.collect S = (none, w')) : w' = w.letOthersAct S none := by
  simp only [collect] at h
  split at h
  · exact (Prod.mk.inj h).2.symm
  · simp at h

theorem collect_via (hP : ∀ r, P (.collected r)) : w.Via S P (w.collect S).2 := by
  have hl : w.Via S P (w.letOthersAct S none) := Via.refl.look
  simp only [collect]
  split
  · exact hl
  · rename_i r rest _
    have hk : w.Via S P { w.letOthersAct S none with
        shared := { (w.letOthersAct S none).shared with results := rest }, inFlight := false } := hl.keep rfl rfl
    exact hk.record rfl (hP r)

theorem startLookup_via (l : Lookup) (hP : ∀ a, P (.call .startThread a)) : w.Via S P (startLookup S l w).2 := by
  have hs : w.Via S P (w.call S .startThread).2 := .of_call nofun (hP _)
  unfold startLookup
  split
  · exact .refl
  · split
    all_goals
      rename_i h
      rw [h] at hs
    · exact hs
    · exact hs.keep rfl rfl

end

inductive Calls (S : System ω) (P : Event → Prop) (w : World ω) : World ω → Prop
  | refl : Calls S P w w
  | call {w' : World ω} (h : Calls S P w w') {c : Call} (hc : c ≠ .wake) (hP : P (.call c (w'.call S c).1)) :
      Calls S P w (w'.call S c).2
  | record {w' : World ω} (h : Calls S P w w') {e : Event} (he : e.isForeign = false) (hP : P e) :
      Calls S P w (w'.record S e)
  | look {w' : World ω} (h : Calls S P w w') : Calls S P w (w'.letOthersAct S none)
  | takeStop {w' : World ω} (h : Calls S P w w') (hP : ∀ stop, P (.looked stop)) : Calls S P w (w'.takeStop S).2

namespace Calls

theorem of_call {c : Call} (hc : c ≠ .wake) (hP : P (.call c (w.call S c).1)) : Calls S P w (w.call S c).2 :=
  Calls.refl.call hc hP

theorem trans (h : Calls S P w w') (h' : Calls S P w' w'') : Calls S P w w'' := by
  induction h' with
  | refl => exact h
  | call _ hc hP ih => exact ih.call hc hP
  | record _ he hP ih => exact ih.record he hP
  | look _ ih => exact ih.look
  | takeStop _ hP ih => exact ih.takeStop hP

theorem mono (h : Calls S P w w') (hPQ : ∀ e, P e → Q e) : Calls S Q w w' := by
  induction h with
  | refl => exact .refl
  | call _ hc hP ih => exact ih.call hc (hPQ _ hP)
  | record _ he hP ih => exact ih.record he (hPQ _ hP)
  | look _ ih => exact ih.look
  | takeStop _ hP ih => exact ih.takeStop fun stop => hPQ _ (hP stop)

theorem via (h : Calls S P w w') : w.Via S P w' := by
  induction h with
  | refl => exact .refl
  | call _ hc hP ih => exact ih.call hc hP
  | record _ he hP ih => exact ih.record he hP
  | look _ ih => exact ih.look
  | @takeStop w' _ hP ih => exact ih.trans (takeStop_via S w' hP)

theorem only (h : Calls S P w w') : Only P w w' := h.via.only

theorem inFlight_eq (h : Calls S P w w') : w'.inFlight = w.inFlight := by
  induction h with
  | refl => rfl
  | @call w' _ c _ _ ih => exact (letOthersAct_inFlight S w' (some c)).trans ih
  | record _ _ _ ih => exact ih
  | @look w' _ ih => exact (letOthersAct_inFlight S w' none).trans ih
  | @takeStop w' _ _ ih => exact (letOthersAct_inFlight S w' none).trans ih

theorem outstanding_eq (h : Calls S P w w') : w'.shared.outstanding = w.shared.outstanding := by
  induction h with
  | refl => rfl
  | @call w' _ c _ _ ih => exact (letOthersAct_outstanding S w' (some c)).trans ih
  | record _ _ _ ih => exact ih
  | @look w' _ ih => exact (letOthersAct_outstanding S w' none).trans ih
  | @takeStop w' _ _ ih => exact (letOthersAct_outstanding S w' none).trans ih

end Calls

theorem wait_calls {capacity : Nat} {timeout : Option Nat} {waited : Call.Waited}
    (h : w.wait S capacity timeout = (waited, w'))
    (hP : ∀ a, P (.call (.wait capacity (timeout.map (min Call.longestWait))) a)) : w.Calls S P w' := by
  have hw : w.Calls S P (w.wait S capacity timeout).2 := .of_call nofun (hP _)
  rwa [h] at hw

section

variable (S : System ω) (w : World ω)

theorem close_calls (s : Socket) : w.Calls S (·.isUnwatched = true) (w.close S s) := .of_call nofun rfl

theorem abandon_calls (s : Socket) : w.Calls S (·.isUnwatched = true) (w.abandon S s) := by
  have hd : w.Calls S (·.isUnwatched = true) (w.call S (.deregister s)).2 := .of_call nofun rfl
  exact hd.trans (close_calls S _ s)

theorem beginConnect_calls (s : Socket) (a : SocketAddress) :
    w.Calls S (·.isUnwatched = true) (w.beginConnect S s a).2 := by
  have hc : w.Calls S (·.isUnwatched = true) (w.call S (.connect s a)).2 := .of_call nofun rfl
  unfold beginConnect
  split
  all_goals
    rename_i h
    rw [h] at hc
  · exact hc
  · exact hc.trans (close_calls S _ s)
  · exact hc.trans (close_calls S _ s)

theorem setOptions_calls (s : Socket) (noDelay : Bool) :
    w.Calls S (·.isUnwatched = true) (w.setOptions S s noDelay).2 := by
  have hb : w.Calls S (·.isUnwatched = true) (w.call S (.setNonBlocking s)).2 := .of_call nofun rfl
  unfold setOptions
  split
  all_goals
    rename_i h
    rw [h] at hb
  · exact hb
  · cases noDelay
    · exact hb
    · exact hb.call (c := .setNoDelay s) nofun rfl

theorem dial_calls (noDelay : Bool) (a : SocketAddress) :
    (w.record S (.dialled a)).Calls S (·.isUnwatched = true) (w.dial S noDelay a).2 := by
  -- the address itself is no errand, so the way starts behind its entry
  have ho : (w.record S (.dialled a)).Calls S (·.isUnwatched = true)
      ((w.record S (.dialled a)).call S (.openSocket a.family)).2 := .of_call nofun rfl
  unfold dial
  split
  · rename_i h
    rw [h] at ho
    exact ho
  · rename_i s w' h
    rw [h] at ho
    have hd := ho.trans (setOptions_calls S w' s noDelay)
    split
    all_goals
      rename_i hn
      rw [hn] at hd
    · exact hd.trans (close_calls S _ s)
    · exact hd.trans (beginConnect_calls S _ s a)

theorem dialWatched_calls (noDelay : Bool) (a : SocketAddress) :
    (w.record S (.dialled a)).Calls S (·.isErrand = true) (w.dialWatched S noDelay a).2 := by
  have hd := (dial_calls S w noDelay a).mono fun _ => Event.isErrand_of_isUnwatched
  unfold dialWatched
  split
  · rename_i h
    rw [h] at hd
    exact hd
  · rename_i s w' h
    rw [h] at hd
    have hr := hd.call (c := .register s socketToken .readWrite) nofun rfl
    split
    all_goals
      rename_i hg
      rw [hg] at hr
    · exact hr.trans ((close_calls S _ s).mono fun _ => Event.isErrand_of_isUnwatched)
    · exact hr

end

theorem beginConnect_ok {s s' : Socket} {a : SocketAddress} (h : w.beginConnect S s a = (.ok s', w')) :
    s' = s ∧ w.Does [.call (.connect s a) .inProgress] w' := by
  have hd := call_does S w (c := .connect s a) nofun
  unfold beginConnect at h
  split at h
  · rename_i hc
    obtain ⟨hs, rfl⟩ := Prod.mk.inj h
    rw [hc] at hd
    exact ⟨(Except.ok.inj hs).symm, hd⟩
  · simp at h
  · simp at h

theorem dial_only (noDelay : Bool) (a : SocketAddress) :
    w.Only (·.isRegistration = false) (w.dial S noDelay a).2 := by
  have hr : w.Only (·.isRegistration = false) (w.record S (.dialled a)) := .of_does (record_does S w rfl) rfl
  exact hr.trans ((dial_calls S w noDelay a).only.mono fun _ => Event.isRegistration_of_isUnwatched)

theorem dial_ok {noDelay : Bool} {a : SocketAddress} {s : Socket} (h : w.dial S noDelay a = (.ok s, w')) :
    ∃ opened, w.Only (·.isRegistration = false) opened ∧ opened.Does [.call (.connect s a) .inProgress] w' := by
  have hr : w.Only (·.isRegistration = false) (w.record S (.dialled a)) := .of_does (record_does S w rfl) rfl
  have ho : w.Only (·.isRegistration = false) ((w.record S (.dialled a)).call S (.openSocket a.family)).2 :=
    hr.trans (.of_does (call_does S _ nofun) rfl)
  unfold dial at h
  split at h
  · simp at h
  · rename_i s' w₁ hopen
    rw [hopen] at ho
    have hn : w.Only (·.isRegistration = false) (w₁.setOptions S s' noDelay).2 :=
      ho.trans ((setOptions_calls S w₁ s' noDelay).only.mono fun _ => Event.isRegistration_of_isUnwatched)
    split at h
    · simp at h
    · rename_i hset
      rw [hset] at hn
      obtain ⟨rfl, hd⟩ := beginConnect_ok h
      exact ⟨_, hn, hd⟩

theorem dialWatched_some {noDelay : Bool} {a : SocketAddress} {s : Socket}
    (h : w.dialWatched S noDelay a = (some s, w')) :
    ∃ opened, w.Only (·.isRegistration = false) opened ∧
      opened.Does [.call (.connect s a) .inProgress, .call (.register s socketToken .readWrite) (.ok ())] w' := by
  unfold dialWatched at h
  split at h
  · simp at h
  · rename_i s' w₁ hdial
    obtain ⟨opened, ho, hd⟩ := dial_ok hdial
    have hr := call_does S w₁ (c := .register s' socketToken .readWrite) nofun
    split at h
    · simp at h
    · rename_i hregister
      obtain ⟨hs, rfl⟩ := Prod.mk.inj h
      obtain rfl := Option.some.inj hs
      rw [hregister] at hr
      exact ⟨opened, ho, hd.trans hr⟩

theorem dialWatched_none {noDelay : Bool} {a : SocketAddress} (h : w.dialWatched S noDelay a = (none, w')) :
    w.Only (·.isRegistration = false) w' := by
  have hd : w.Only (·.isRegistration = false) (w.dial S noDelay a).2 := dial_only noDelay a
  unfold dialWatched at h
  split at h
  · rename_i hdial
    rw [hdial] at hd
    rwa [← (Prod.mk.inj h).2]
  · rename_i s w₁ hdial
    rw [hdial] at hd
    have hr := call_does S w₁ (c := .register s socketToken .readWrite) nofun
    split at h
    · rename_i code refused hregister
      obtain ⟨-, rfl⟩ := Prod.mk.inj h
      rw [hregister] at hr
      have hc := (close_calls S refused s).only.mono fun _ => Event.isRegistration_of_isUnwatched
      exact (hd.trans (.of_does hr rfl)).trans hc
    · simp at h

end World

end IrcLink
