import IrcLink.Command
import IrcLink.Proofs.Message.Grammar
import IrcLink.Proofs.Text.Utf8

/-!
What is sent can be read. Every command is a line of the inbound grammar without an origin, from which the command is
recovered; lines sent one after another are taken apart where one ends and the next begins.
-/

namespace IrcLink

open Bytes

namespace Message

theorem parse_ok_bounds {data : Bytes} {m : Message} {n : Nat} (h : parse data = .ok (m, n)) :
    0 < n ∧ n ≤ data.length := by
  obtain ⟨p, hf, -⟩ := parse_eq_ok_iff.mp h
  obtain ⟨line, rest, rfl, -, rfl, -⟩ := hf
  rw [List.length_append, List.length_cons]
  omega

theorem lf_notMem_params {data : Bytes} {m : Message} {n : Nat} (h : parse data = .ok (m, n)) : lf ∉ m.params := by
  obtain ⟨p, ⟨line, rest, -, hline, -, htext⟩, rfl⟩ := parse_eq_ok_iff.mp h
  have hp : lf ∉ p.line := by
    obtain rfl | ⟨rfl, -⟩ := htext
    · exact fun hm => hline (List.mem_append_left _ hm)
    · exact hline
  intro hm
  apply hp
  have hbody : lf ∈ p.body := by
    unfold Parts.message at hm
    unfold Parts.body
    cases hr : p.params with
    | none => simp [hr] at hm
    | some r =>
      rw [hr, Option.getD_some] at hm
      simp [hm]
  unfold Parts.line
  cases p.origin with
  | none => exact hbody
  | some o => simp [hbody]

def parseAll (data : Bytes) : List Message × Bytes :=
  match _h : parse data with
  | .ok (m, n) => (m :: (parseAll (data.drop n)).1, (parseAll (data.drop n)).2)
  | .error _ => ([], data)
termination_by data.length
decreasing_by
  all_goals
    have := parse_ok_bounds _h
    rw [List.length_drop]
    omega

theorem parseAll_nil : parseAll [] = ([], []) := by rw [parseAll, parse_eq_incomplete_iff.mpr List.not_mem_nil]

theorem parseAll_of_ok {data : Bytes} {m : Message} {n : Nat} (h : parse data = .ok (m, n)) :
    parseAll data = (m :: (parseAll (data.drop n)).1, (parseAll (data.drop n)).2) := by rw [parseAll, h]

end Message

namespace Command

/-- What keeps a line from being read as two, and its first field from being read as shorter than it is. -/
def Sendable : Command → Prop
  | nick n => '\n' ∉ n.toList
  | user login realname => ('\n' ∉ login.toList ∧ ' ' ∉ login.toList) ∧ '\n' ∉ realname.toList
  | join channel key => ('\n' ∉ channel.toList ∧ ' ' ∉ channel.toList) ∧ ∀ k ∈ key, '\n' ∉ k.toList
  | pong params => lf ∉ params
  | quit reason => ∀ r ∈ reason, '\n' ∉ r.toList

instance : DecidablePred Sendable
  | nick n => inferInstanceAs (Decidable ('\n' ∉ n.toList))
  | user login realname =>
    inferInstanceAs (Decidable (('\n' ∉ login.toList ∧ ' ' ∉ login.toList) ∧ '\n' ∉ realname.toList))
  | join channel key =>
    inferInstanceAs
      (Decidable (('\n' ∉ channel.toList ∧ ' ' ∉ channel.toList) ∧ ∀ k ∈ key, '\n' ∉ k.toList))
  | pong params => inferInstanceAs (Decidable (lf ∉ params))
  | quit reason => inferInstanceAs (Decidable (∀ r ∈ reason, '\n' ∉ r.toList))

def word : Command → Bytes
  | nick _ => ofText "NICK"
  | user _ _ => ofText "USER"
  | join _ _ => ofText "JOIN"
  | pong _ => ofText "PONG"
  | quit _ => ofText "QUIT"

def args : Command → Option Bytes
  | nick n => some (ofText n)
  | user login realname => some (ofText login ++ space :: (ofText "8 * :" ++ ofText realname))
  | join channel key => some (ofText channel ++ key.elim [] fun k => space :: ofText k)
  | pong params => if params = [] then none else some params
  | quit reason => reason.map fun r => colon :: ofText r

def readUser? (params : Bytes) : Option Command := do
  let (login, rest) ← splitAt? space params
  let realname ← (ofText "8 * :").isPrefixOf? rest
  return user (← Utf8.decode? login) (← Utf8.decode? realname)

def readJoin? (params : Bytes) : Option Command :=
  match splitAt? space params with
  | none => (Utf8.decode? params).map (join · none)
  | some (channel, key) => do return join (← Utf8.decode? channel) (some (← Utf8.decode? key))

def readQuit? : Bytes → Option Command
  | [] => some (quit none)
  | b :: r => if b = colon then (Utf8.decode? r).map fun s => quit (some s) else none

/-- The command of which a line with this command word and these parameters tells. -/
def read? (word params : Bytes) : Option Command :=
  if word = ofText "NICK" then (Utf8.decode? params).map nick
  else if word = ofText "USER" then readUser? params
  else if word = ofText "JOIN" then readJoin? params
  else if word = ofText "PONG" then some (pong params)
  else if word = ofText "QUIT" then readQuit? params
  else none

variable {c : Command}

theorem body_eq (c : Command) : c.body = c.word ++ c.args.elim [] (space :: ·) := by
  cases c with
  | nick n => rfl
  | user login realname =>
    have hmiddle : ofText " 8 * :" = space :: ofText "8 * :" := rfl
    have hword : ofText "USER " = ofText "USER" ++ [space] := rfl
    rw [body, word, args, Option.elim_some, hmiddle, hword]
    simp only [List.append_assoc, List.cons_append, List.nil_append]
  | join channel key =>
    have hword : ofText "JOIN " = ofText "JOIN" ++ [space] := rfl
    rw [body, word, args, Option.elim_some, hword]
    simp only [List.append_assoc, List.cons_append, List.nil_append]
  | pong params =>
    rw [body, word, args]
    split <;> rfl
  | quit reason => cases reason <;> rfl

def parts (c : Command) : Message.Parts where
  origin := none
  origin_word := nofun
  indent := 0
  command := c.word
  command_ne := by cases c <;> dsimp only [word] <;> decide
  command_plain := by cases c <;> dsimp only [word] <;> decide +kernel
  params := c.args

theorem parts_line (c : Command) : c.parts.line = c.body := c.body_eq.symm

theorem lf_notMem_text {s : String} (h : '\n' ∉ s.toList) : lf ∉ ofText s := Utf8.notMem_ofText h rfl (by decide)

theorem space_notMem_text {s : String} (h : ' ' ∉ s.toList) : space ∉ ofText s :=
  Utf8.notMem_ofText h rfl (by decide)

theorem Sendable.lf_notMem_args (hc : c.Sendable) : ∀ r ∈ c.args, lf ∉ r := by
  intro r hr
  cases c with
  | nick n =>
    obtain rfl := Option.some.inj hr
    exact lf_notMem_text hc
  | user login realname =>
    obtain ⟨⟨hlogin, -⟩, hname⟩ := hc
    obtain rfl := Option.some.inj hr
    have hmiddle : lf ∉ space :: ofText "8 * :" := by decide
    simp only [List.mem_append, List.mem_cons] at hmiddle ⊢
    rintro (h | h | h | h)
    · exact lf_notMem_text hlogin h
    · exact hmiddle (.inl h)
    · exact hmiddle (.inr h)
    · exact lf_notMem_text hname h
  | join channel key =>
    obtain ⟨⟨hchannel, -⟩, hkey⟩ := hc
    obtain rfl := Option.some.inj hr
    cases key with
    | none =>
      rw [Option.elim_none, List.append_nil]
      exact lf_notMem_text hchannel
    | some k =>
      simp only [Option.elim_some, List.mem_append, List.mem_cons]
      rintro (h | h | h)
      · exact lf_notMem_text hchannel h
      · exact absurd h (by decide)
      · exact lf_notMem_text (hkey k rfl) h
  | pong params =>
    rw [args, Option.mem_def] at hr
    split at hr
    · exact absurd hr nofun
    · obtain rfl := Option.some.inj hr
      exact hc
  | quit reason =>
    obtain ⟨s, hs, rfl⟩ := Option.map_eq_some_iff.mp hr
    rintro (_ | ⟨_, h⟩)
    exact lf_notMem_text (hc s hs) h

theorem Sendable.lf_notMem_body (hc : c.Sendable) : lf ∉ c.body := by
  rw [body_eq, List.mem_append]
  rintro (h | h)
  · cases c <;> exact absurd h (by decide : lf ∉ ofText _)
  · cases ha : c.args with
    | none => simp [ha] at h
    | some r =>
      rw [ha, Option.elim_some, List.mem_cons] at h
      obtain h | h := h
      · exact absurd h (by decide)
      · exact hc.lf_notMem_args r ha h

theorem Sendable.firstLine (hc : c.Sendable) (rest : Bytes) :
    Message.FirstLine (c.encode ++ rest) c.body c.encode.length := by
  refine ⟨c.body ++ [cr], rest, ?_, ?_, ?_, .inl rfl⟩
  · rw [encode, List.append_assoc, List.append_assoc]
    rfl
  · rw [List.mem_append]
    rintro (h | h)
    · exact hc.lf_notMem_body h
    · exact absurd h (by decide)
  · rw [encode, List.length_append, List.length_append]
    rfl

theorem Sendable.parse_encode (hc : c.Sendable) (rest : Bytes) :
    Message.parse (c.encode ++ rest) = .ok (⟨none, c.word, c.args.getD []⟩, c.encode.length) := by
  rw [(hc.firstLine rest).parse_eq, ← parts_line, c.parts.ofLine_line]
  rfl

theorem readUser?_eq {login : String} (hlogin : ' ' ∉ login.toList) (realname : String) :
    readUser? (ofText login ++ space :: (ofText "8 * :" ++ ofText realname)) = some (user login realname) := by
  have hmiddle := List.isPrefixOf?_eq_some_iff_append_eq.mpr (Eq.refl (ofText "8 * :" ++ ofText realname))
  rw [readUser?, splitAt?_of_notMem (space_notMem_text hlogin)]
  simp only [Option.bind_eq_bind, Option.bind_some, hmiddle, Utf8.decode?_ofText]
  rfl

theorem readJoin?_eq {channel : String} (hchannel : ' ' ∉ channel.toList) (key : Option String) :
    readJoin? (ofText channel ++ key.elim [] fun k => space :: ofText k) = some (join channel key) := by
  rw [readJoin?]
  cases key with
  | none =>
    rw [Option.elim_none, List.append_nil, splitAt?_eq_none.mpr (space_notMem_text hchannel)]
    dsimp only
    rw [Utf8.decode?_ofText]
    rfl
  | some k =>
    rw [Option.elim_some, splitAt?_of_notMem (space_notMem_text hchannel)]
    simp only [Utf8.decode?_ofText, Option.bind_eq_bind, Option.bind_some]
    rfl

theorem readQuit?_eq (reason : Option String) :
    readQuit? ((reason.map fun r => colon :: ofText r).getD []) = some (quit reason) := by
  cases reason with
  | none => rfl
  | some r =>
    rw [Option.map_some, Option.getD_some, readQuit?, if_pos rfl, Utf8.decode?_ofText]
    rfl

theorem getD_args_pong (params : Bytes) : (args (pong params)).getD [] = params := by
  by_cases h : params = [] <;> simp [args, h]

theorem Sendable.read?_eq (hc : c.Sendable) : read? c.word (c.args.getD []) = some c := by
  cases c with
  | nick n =>
    rw [read?, word, if_pos rfl, args, Option.getD_some, Utf8.decode?_ofText]
    rfl
  | user login realname =>
    rw [read?, word, if_neg (by decide), if_pos rfl, args, Option.getD_some, readUser?_eq hc.1.2]
  | join channel key =>
    rw [read?, word, if_neg (by decide), if_neg (by decide), if_pos rfl, args, Option.getD_some, readJoin?_eq hc.1.2]
  | pong params =>
    rw [read?, word, if_neg (by decide), if_neg (by decide), if_neg (by decide), if_pos rfl, getD_args_pong]
  | quit reason =>
    rw [read?, word, if_neg (by decide), if_neg (by decide), if_neg (by decide), if_neg (by decide), if_pos rfl, args,
      readQuit?_eq]

theorem foldl_encodeOnto (buf : Bytes) (cs : List Command) : cs.foldl encodeOnto buf = buf ++ cs.flatMap encode := by
  induction cs generalizing buf with
  | nil => rw [List.foldl_nil, List.flatMap_nil, List.append_nil]
  | cons c cs ih => rw [List.foldl_cons, ih, encodeOnto, List.flatMap_cons, List.append_assoc]

theorem parseAll_encoded {cs : List Command} (hs : ∀ c ∈ cs, c.Sendable) :
    Message.parseAll (cs.flatMap encode) = (cs.map fun c => ⟨none, c.word, c.args.getD []⟩, []) := by
  induction cs with
  | nil => exact Message.parseAll_nil
  | cons c cs ih =>
    have hc := (hs c List.mem_cons_self).parse_encode (cs.flatMap encode)
    rw [List.flatMap_cons, Message.parseAll_of_ok hc, List.drop_left, ih fun d hd => hs d (List.mem_cons_of_mem c hd)]
    rfl

theorem parse_pong {data : Bytes} {m : Message} {n : Nat} (h : Message.parse data = .ok (m, n)) (rest : Bytes) :
    Message.parse ((pong m.params).encode ++ rest) =
      .ok (⟨none, ofText "PONG", m.params⟩, (pong m.params).encode.length) := by
  have hs : (pong m.params).Sendable := Message.lf_notMem_params h
  have hp := hs.parse_encode rest
  rwa [getD_args_pong] at hp

theorem encoded_uniquely_decodable :
    (∀ (buf : Bytes) (cs : List Command), (∀ c ∈ cs, c.Sendable) →
      ∃ appended ms, cs.foldl encodeOnto buf = buf ++ appended ∧ Message.parseAll appended = (ms, []) ∧
        (∀ m ∈ ms, m.origin = none) ∧ ms.map (fun m => read? m.command m.params) = cs.map some) ∧
    -- what came as parameters of a line goes out as parameters of the answer
    ∀ (data : Bytes) (m : Message) (n : Nat), Message.parse data = .ok (m, n) → ∀ rest,
      Message.parse ((pong m.params).encode ++ rest) =
        .ok (⟨none, ofText "PONG", m.params⟩, (pong m.params).encode.length) := by
  constructor
  · intro buf cs hs
    refine ⟨_, _, foldl_encodeOnto buf cs, parseAll_encoded hs, ?_, ?_⟩
    · intro m hm
      obtain ⟨c, -, rfl⟩ := List.mem_map.mp hm
      rfl
    · rw [List.map_map]
      apply List.map_congr_left
      intro c hc
      exact (hs c hc).read?_eq
  · intro data m n h
    exact parse_pong h

def samples : List Command :=
  [nick "é\r", user "" "", join "#c" none, join "#c" (some ""), pong (ofText " :x\r"), quit none, quit (some ""),
    quit (some "bye\r")]

theorem encoded_uniquely_decodable_of_samples :
    (∃ ms, Message.parseAll (ofText ("NICK é\r\r\nUSER  8 * :\r\nJOIN #c\r\nJOIN #c \r\n" ++
        "PONG  :x\r\r\nQUIT\r\nQUIT :\r\nQUIT :bye\r\r\n")) = (ms, []) ∧
      ms.map (fun m => read? m.command m.params) = samples.map some) ∧
    Message.parse (ofText "PONG :12345 extra\r\n") = .ok (⟨none, ofText "PONG", ofText ":12345 extra"⟩, 19) := by
  obtain ⟨hlists, hpong⟩ := encoded_uniquely_decodable
  constructor
  · obtain ⟨appended, ms, ha, hms, -, hread⟩ := hlists (ofText "kept") samples (by decide +kernel)
    have hsent : samples.foldl encodeOnto (ofText "kept") =
        ofText "kept" ++ ofText ("NICK é\r\r\nUSER  8 * :\r\nJOIN #c\r\nJOIN #c \r\n" ++
          "PONG  :x\r\r\nQUIT\r\nQUIT :\r\nQUIT :bye\r\r\n") := by
      decide +kernel
    rw [ha] at hsent
    rw [← List.append_cancel_left hsent]
    exact ⟨ms, hms, hread⟩
  · have hping : Message.parse (ofText "PING :12345 extra\r\n") =
        .ok (⟨none, ofText "PING", ofText ":12345 extra"⟩, 19) := by decide +kernel
    have h := hpong _ _ _ hping []
    rwa [List.append_nil] at h

end Command

end IrcLink
