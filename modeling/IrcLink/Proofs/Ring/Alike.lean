import IrcLink.Proofs.Ring.Queue

/-!
Rings that nobody can tell apart: they have the same room, the same bytes are queued in them, and at the same places.
What stands in the rest of their storage may differ.
-/

namespace IrcLink

namespace Ring

variable {r r' : Ring}

structure Alike (r r' : Ring) : Prop where
  holds : r.Holds r'.capacity r'.toList
  wellFormed : r'.WellFormed
  head_eq : r.head = r'.head

theorem Holds.alike {C : Nat} {q : Bytes} (h : r.Holds C q) (h' : r'.Holds C q) (hh : r.head = r'.head) :
    r.Alike r' := by
  obtain ⟨hw', rfl, rfl⟩ := h'
  exact ⟨h, hw', hh⟩

theorem put_head (r : Ring) (src : Bytes) : (r.put src).1.head = r.head := by
  have all (src : Bytes) : (r.putAll src).head = r.head := by
    induction r, src using putAll.induct with
    | case1 r src hp => rw [putAll, hp]
    | case2 r src r' rest hp ih =>
      rw [putAll, hp]
      refine ih.trans ?_
      simp only [putPass] at hp
      split at hp
      · simp at hp
      · obtain ⟨rfl, -⟩ := by simpa using hp
        rfl
  exact all _

namespace Alike

theorem holds_right (h : r.Alike r') : r'.Holds r'.capacity r'.toList := ⟨h.wellFormed, rfl, rfl⟩

theorem capacity_eq (h : r.Alike r') : r.capacity = r'.capacity := h.holds.capacity_eq

theorem len_eq (h : r.Alike r') : r.len = r'.len := by rw [h.holds.len_eq, h.holds_right.len_eq]

theorem free_eq (h : r.Alike r') : r.free = r'.free := by rw [h.holds.free_eq, h.holds_right.free_eq]

theorem isEmpty_eq (h : r.Alike r') : r.isEmpty = r'.isEmpty := by rw [isEmpty, isEmpty, h.len_eq]

theorem readSpanLength_eq (h : r.Alike r') : r.readSpanLength = r'.readSpanLength := by
  rw [readSpanLength, readSpanLength, h.len_eq, h.capacity_eq, h.head_eq]

theorem readSpan_eq (h : r.Alike r') : r.readSpan = r'.readSpan := by
  rw [h.holds.readSpan_eq, h.holds_right.readSpan_eq, h.readSpanLength_eq]

theorem tail_eq (h : r.Alike r') : r.tail = r'.tail := by
  rw [← h.holds.wellFormed.tail_eq, ← h.wellFormed.tail_eq, h.head_eq, h.len_eq, h.capacity_eq]

theorem writeSpanLength_eq (h : r.Alike r') : r.writeSpanLength = r'.writeSpanLength := by
  rw [writeSpanLength, writeSpanLength, h.free_eq, h.capacity_eq, h.tail_eq]

theorem advanceHead (h : r.Alike r') {n : Nat} (hn : n ≤ r.readSpanLength) :
    (r.advanceHead n).Alike (r'.advanceHead n) := by
  have hn' : n ≤ r'.readSpanLength := h.readSpanLength_eq ▸ hn
  refine (h.holds.advanceHead hn).alike (h.holds_right.advanceHead hn') ?_
  unfold Ring.advanceHead
  rw [h.len_eq, h.head_eq, h.capacity_eq]
  split <;> rfl

theorem fill (h : r.Alike r') {data : Bytes} (hd : data.length ≤ r.writeSpanLength) :
    ((r.overwriteSpan data).advanceTail data.length).Alike ((r'.overwriteSpan data).advanceTail data.length) :=
  (h.holds.fill hd).alike (h.holds_right.fill (h.writeSpanLength_eq ▸ hd)) h.head_eq

theorem put (h : r.Alike r') (src : Bytes) : (r.put src).1.Alike (r'.put src).1 := by
  refine (h.holds.put src).2.alike (h.holds_right.put src).2 ?_
  rw [put_head, put_head, h.head_eq]

theorem clear (h : r.Alike r') : r.clear.Alike r'.clear := h.holds.clear.alike h.holds_right.clear rfl

end Alike

end Ring

def Ring.Rewound (C : Nat) (r : Ring) : Prop := r.Holds C [] ∧ r.head = 0

theorem Ring.Rewound.alike {C : Nat} {r r' : Ring} (h : r.Rewound C) (h' : r'.Rewound C) : r.Alike r' :=
  h.1.alike h'.1 (h.2.trans h'.2.symm)

theorem Ring.create_rewound {C : Nat} {r : Ring} (h : Ring.create C = .ok r) : r.Rewound C := by
  refine ⟨create_holds h, ?_⟩
  unfold Ring.create at h
  split at h
  · simp at h
  · obtain rfl := Except.ok.inj h
    rfl

namespace Buffers

structure Alike (b b' : Buffers) : Prop where
  read : b.read.Alike b'.read
  write : b.write.Alike b'.write

structure Hold (C : Nat) (b : Buffers) : Prop where
  read : ∃ q, b.read.Holds C q
  write : ∃ q, b.write.Holds C q

structure Rewound (C : Nat) (b : Buffers) : Prop where
  read : b.read.Rewound C
  write : b.write.Rewound C

variable {C : Nat} {b b' : Buffers}

theorem Alike.clear (h : b.Alike b') : b.clear.Alike b'.clear := ⟨h.read.clear, h.write.clear⟩

theorem Hold.read_wellFormed (h : b.Hold C) : b.read.WellFormed := h.read.elim fun _ hr => hr.wellFormed

theorem Hold.write_wellFormed (h : b.Hold C) : b.write.WellFormed := h.write.elim fun _ hw => hw.wellFormed

theorem Hold.clear (h : b.Hold C) : b.clear.Rewound C := by
  obtain ⟨⟨_, hr⟩, _, hw⟩ := h
  exact ⟨⟨hr.clear, rfl⟩, hw.clear, rfl⟩

namespace Rewound

theorem hold (h : b.Rewound C) : b.Hold C := ⟨⟨[], h.read.1⟩, [], h.write.1⟩

theorem alike (h : b.Rewound C) (h' : b'.Rewound C) : b.Alike b' := ⟨h.read.alike h'.read, h.write.alike h'.write⟩

theorem of_create (h : create C = .ok b) : b.Rewound C := by
  obtain ⟨ring, hr, h⟩ := Fault.bind_eq_ok.mp h
  obtain rfl := Except.ok.inj h
  exact ⟨Ring.create_rewound hr, Ring.create_rewound hr⟩

end Rewound

end Buffers

end IrcLink
