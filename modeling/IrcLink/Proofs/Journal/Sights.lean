import IrcLink.Proofs.Journal.Own

/-!
What an engine sees of the outside while it is connected, and the steps that show it nothing. A read or a write that is
interrupted is made again, so it shows nothing either.
-/

namespace IrcLink

/-- What an engine that is connected learns from outside. -/
inductive Sight where
  | waited (w : Call.Waited)
  | received (r : Call.Received)
  | accepted (r : Call.Sent)
  | watched (done : Bool)
  | looked (stop : Bool)
  deriving Repr, DecidableEq

namespace Event

def sight? : Event → Option Sight
  | .call (.wait _ _) a => some (.waited a)
  | .call (.read _ _) a => if a = .interrupted then none else some (.received a)
  | .call (.write _ _) a => if a = .interrupted then none else some (.accepted a)
  | .call (.reregister _ _ _) a => some (.watched a.isOk)
  | .looked stop => some (.looked stop)
  | _ => none

def stream? : Event → Option Socket
  | .call (.read s _) _ => some s
  | .call (.write s _) _ => some s
  | _ => none

def isSilent (e : Event) : Bool := e.sight?.isNone && e.stream?.isNone

theorem sight_of_foreign {e : Event} (h : e.isForeign = true) : e.sight? = none := by
  cases e with
  | call c a => cases c <;> first | rfl | simp [isForeign] at h
  | looked stop => simp [isForeign] at h
  | _ => rfl

theorem sight_of_isSilent {e : Event} (h : e.isSilent = true) : e.sight? = none :=
  Option.isNone_iff_eq_none.mp (Bool.and_eq_true_iff.mp h).1

theorem stream_of_isSilent {e : Event} (h : e.isSilent = true) : e.stream? = none :=
  Option.isNone_iff_eq_none.mp (Bool.and_eq_true_iff.mp h).2

end Event

namespace Journal

def sights (j : Journal) : List Sight := j.filterMap (·.event.sight?)

theorem sights_own (j : Journal) : j.own.filterMap Event.sight? = j.sights :=
  filterMap_own Event.sight? (fun _ => Event.sight_of_foreign) j

end Journal

namespace World

variable {ω : Type} {S : System ω} {w w' w'' : World ω}

def Hush : World ω → World ω → Prop := Only (·.isSilent = true)

/-- Between these two worlds the engine saw nothing, though it may have been interrupted. -/
def Unseen : World ω → World ω → Prop := Only (·.sight? = none)

theorem Hush.unseen (h : w.Hush w') : w.Unseen w' := h.mono fun _ => Event.sight_of_isSilent

def Sees (w w' : World ω) : Prop := ∃ es, w.Does es w' ∧ es.filterMap Event.sight? ≠ []

namespace Sees

theorem of_does {e : Event} {x : Sight} (h : w.Does [e] w') (he : e.sight? = some x) : w.Sees w' :=
  ⟨[e], h, by rw [List.filterMap_cons_some he]; nofun⟩

theorem after (h : w.Goes w') (h' : w'.Sees w'') : w.Sees w'' := by
  obtain ⟨es, hd⟩ := h
  obtain ⟨es', hd', hne⟩ := h'
  refine ⟨es ++ es', hd.trans hd', fun hnil => hne ?_⟩
  rw [List.filterMap_append] at hnil
  exact (List.append_eq_nil_iff.mp hnil).2

theorem before (h : w.Sees w') (h' : w'.Goes w'') : w.Sees w'' := by
  obtain ⟨es, hd, hne⟩ := h
  obtain ⟨es', hd'⟩ := h'
  refine ⟨es ++ es', hd.trans hd', fun hnil => hne ?_⟩
  rw [List.filterMap_append] at hnil
  exact (List.append_eq_nil_iff.mp hnil).1

theorem goes (h : w.Sees w') : w.Goes w' := by
  obtain ⟨es, hd, -⟩ := h
  exact ⟨es, hd⟩

end Sees

theorem record_hush {e : Event} (w : World ω) (hf : e.isForeign = false) (he : e.isSilent = true) :
    w.Hush (w.record S e) := .of_does (record_does S w hf) he

theorem call_hush {c : Call} (w : World ω) (hc : c ≠ .wake) (hs : ∀ a, (Event.call c a).isSilent = true) :
    w.Hush (w.call S c).2 := .of_does (call_does S w hc) (hs _)

theorem close_hush (w : World ω) (s : Socket) : w.Hush (w.close S s) := call_hush w nofun fun _ => rfl

theorem abandon_hush (w : World ω) (s : Socket) : w.Hush (w.abandon S s) :=
  (call_hush w (c := .deregister s) nofun fun _ => rfl).trans (close_hush _ s)

theorem beginConnect_hush (w : World ω) (s : Socket) (a : SocketAddress) : w.Hush (w.beginConnect S s a).2 := by
  have hq : w.Hush (w.call S (.connect s a)).2 := call_hush w nofun fun _ => rfl
  unfold beginConnect
  split
  all_goals
    rename_i hc
    rw [hc] at hq
  · exact hq
  · exact hq.trans (close_hush _ s)
  · exact hq.trans (close_hush _ s)

theorem setOptions_hush (w : World ω) (s : Socket) (noDelay : Bool) : w.Hush (w.setOptions S s noDelay).2 := by
  have hb : w.Hush (w.call S (.setNonBlocking s)).2 := call_hush w nofun fun _ => rfl
  unfold setOptions
  split
  all_goals
    rename_i hc
    rw [hc] at hb
  · exact hb
  · cases noDelay
    · exact hb
    · exact hb.trans (call_hush _ (c := .setNoDelay s) nofun fun _ => rfl)

theorem dial_hush (w : World ω) (noDelay : Bool) (a : SocketAddress) : w.Hush (w.dial S noDelay a).2 := by
  have hr : w.Hush (w.record S (.dialled a)) := record_hush w rfl rfl
  have ho := hr.trans (call_hush (S := S) (w.record S (.dialled a)) (c := .openSocket a.family) nofun fun _ => rfl)
  unfold dial
  split
  · rename_i hc
    rw [hc] at ho
    exact ho
  · rename_i s w' hc
    rw [hc] at ho
    have hd := ho.trans (setOptions_hush (S := S) w' s noDelay)
    split
    all_goals
      rename_i hn
      rw [hn] at hd
    · exact hd.trans (close_hush _ s)
    · exact hd.trans (beginConnect_hush _ s a)

theorem dialWatched_hush (w : World ω) (noDelay : Bool) (a : SocketAddress) :
    w.Hush (w.dialWatched S noDelay a).2 := by
  have hd : w.Hush (w.dial S noDelay a).2 := dial_hush w noDelay a
  unfold dialWatched
  split
  · rename_i hc
    rw [hc] at hd
    exact hd
  · rename_i s w' hc
    rw [hc] at hd
    have hr := hd.trans (call_hush (S := S) w' (c := .register s socketToken .readWrite) nofun fun _ => rfl)
    split
    all_goals
      rename_i hg
      rw [hg] at hr
    · exact hr.trans (close_hush _ s)
    · exact hr

theorem collect_hush (w : World ω) : w.Hush (w.collect S).2 := by
  refine ⟨_, collect_does S w, ?_⟩
  intro e he
  obtain ⟨r, -, rfl⟩ := List.mem_map.mp he
  rfl

theorem startLookup_hush (w : World ω) (l : Lookup) : w.Hush (startLookup S l w).2 := by
  have hs : w.Hush (w.call S .startThread).2 := call_hush w nofun fun _ => rfl
  unfold startLookup
  split
  · exact .refl w
  · split
    all_goals
      rename_i hc
      rw [hc] at hs
    · exact hs
    · exact hs.trans (.of_does_nil (.of_journal_eq rfl))

end World

end IrcLink
