import IrcLink.Config
import IrcLink.Text.Utf8
import IrcLink.Toml.Document

/-!
A configuration from a document. Each part is read into a draft, in which every setting is still open; a setting that
the document leaves open takes its default, if it has one. The first thing that does not fit is reported: entries in
the order of the document, each of them whole before the next, and what is missing from a part last.
-/

namespace IrcLink.Config

open Toml (Value)

inductive Found where
  | string (s : String)
  | integer (n : Int)
  | float (x : Binary64)
  | boolean (b : Bool)
  | sequence
  | map
  deriving Repr, DecidableEq

def Found.ofValue : Value → Found
  | .string s => string s
  | .integer n => integer n
  | .float x => float x
  | .boolean b => boolean b
  | .moment => map
  | .array _ => sequence
  | .table _ => map

def Found.describe : Found → String
  | string s => "string " ++ Quoted.quote s
  | integer n => "integer \x60" ++ toString n ++ "\x60"
  | float x => "floating point \x60" ++ x.toText ++ "\x60"
  | boolean b => "boolean \x60" ++ toString b ++ "\x60"
  | sequence => "sequence"
  | map => "map"

inductive ShapeError where
  | unknownField (name : String) (expected : List String)
  | duplicateField (name : String)
  | missingField (name : String)
  | unknownVariant (name : String) (expected : List String)
  | wrongType (found : Found) (wanted : String)
  | outOfRange (n : Int) (wanted : String)
  /-- A list of settings too short, or an alternative that is not given by its name. -/
  | unspecified
  deriving Repr, DecidableEq

def quoteName (name : String) : String := "\x60" ++ name ++ "\x60"

def oneOf : List String → String
  | [a, b] => quoteName a ++ " or " ++ quoteName b
  | names => "one of " ++ ", ".intercalate (names.map quoteName)

def ShapeError.message? : ShapeError → Option String
  | unknownField name expected => some ("unknown field " ++ quoteName name ++ ", expected " ++ oneOf expected)
  | duplicateField name => some ("duplicate field " ++ quoteName name)
  | missingField name => some ("missing field " ++ quoteName name)
  | unknownVariant name expected => some ("unknown variant " ++ quoteName name ++ ", expected " ++ oneOf expected)
  | wrongType found wanted => some ("invalid type: " ++ found.describe ++ ", expected " ++ wanted)
  | outOfRange n wanted => some ("invalid value: " ++ (Found.integer n).describe ++ ", expected " ++ wanted)
  | unspecified => none

abbrev Shape := Except ShapeError

def wrongType {α : Type} (v : Value) (wanted : String) : Shape α := .error (.wrongType (.ofValue v) wanted)

def text : Value → Shape String
  | .string s => .ok s
  | v => wrongType v "a string"

def truth : Value → Shape Bool
  | .boolean b => .ok b
  | v => wrongType v "a boolean"

def natural (wanted : String) (bits : Nat) : Value → Shape Nat
  | .integer n => if 0 ≤ n ∧ n.toNat < Nat.pow 2 bits then .ok n.toNat else .error (.outOfRange n wanted)
  | v => wrongType v wanted

def sequence {α : Type} (item : Value → Shape α) : Value → Shape (List α)
  | .array vs => vs.mapM item
  | v => wrongType v "a sequence"

/-- The one key that a date or time shows where a part of the configuration is wanted. -/
def momentKey : String := "$__toml_private_datetime"

/-- How a part of the configuration is read: the names of its settings, how one is put into a draft, and what becomes
of the draft. -/
structure Part (δ α : Type) where
  title : String
  settings : List String
  blank : δ
  set : δ → String → Value → Shape δ
  finish : δ → Shape α

def fill {α δ : Type} (name : String) (place : Option α) (read : Shape α) (put : α → δ) : Shape δ :=
  if place.isSome then .error (.duplicateField name) else put <$> read

def require {α : Type} (name : String) (place : Option α) : Shape α :=
  match place with
  | some a => .ok a
  | none => .error (.missingField name)

/-- A part is a table of its settings, or a list of them in order; a list may stop early if the rest have defaults. -/
def Part.read {δ α : Type} (p : Part δ α) : Value → Shape α
  | .table entries => do p.finish (← entries.foldlM (fun d e => p.set d e.1 e.2) p.blank)
  | .moment => .error (.unknownField momentKey p.settings)
  | .array vs => do
    let draft ← (p.settings.zip vs).foldlM (fun d e => p.set d e.1 e.2) p.blank
    match p.finish draft with
    | .ok a => .ok a
    | .error _ => .error .unspecified
  | v => wrongType v ("struct " ++ p.title)

namespace Server

structure Draft where
  host : Option String := none
  port : Option Nat := none

def part : Part Draft Server where
  title := "ServerConfig"
  settings := ["host", "port"]
  blank := {}
  set d name v := match name with
    | "host" => fill name d.host (text v) fun x => { d with host := some x }
    | "port" => fill name d.port (natural "u16" 16 v) fun x => { d with port := some x }
    | _ => .error (.unknownField name ["host", "port"])
  finish d := do return { host := ← require "host" d.host, port := d.port.getD 6667 }

end Server

namespace Identity

structure Draft where
  nicks : Option (List String) := none
  name : Option String := none
  login : Option String := none

def part : Part Draft Identity where
  title := "IdentityConfig"
  settings := ["nicks", "name", "login"]
  blank := {}
  set d name v := match name with
    | "nicks" => fill name d.nicks (sequence text v) fun x => { d with nicks := some x }
    | "name" => fill name d.name (text v) fun x => { d with name := some x }
    | "login" => fill name d.login (text v) fun x => { d with login := some x }
    | _ => .error (.unknownField name ["nicks", "name", "login"])
  finish d := do
    return { nicks := ← require "nicks" d.nicks, name := d.name.getD "rpbot", login := d.login.getD "rpbot" }

end Identity

namespace Channel

structure Draft where
  name : Option String := none
  key : Option String := none

def part : Part Draft Channel where
  title := "ChannelConfig"
  settings := ["name", "key"]
  blank := {}
  set d name v := match name with
    | "name" => fill name d.name (text v) fun x => { d with name := some x }
    | "key" => fill name d.key (text v) fun x => { d with key := some x }
    | _ => .error (.unknownField name ["name", "key"])
  finish d := do return { name := ← require "name" d.name, key := d.key }

end Channel

namespace Tuning

structure Draft where
  bufferSize : Option Nat := none
  pollTimeout : Option Nat := none
  retryDelay : Option Nat := none
  connectTimeout : Option Nat := none
  noDelay : Option Bool := none

def settings : List String :=
  ["buffer_size", "poll_timeout_ms", "retry_delay_ms", "connect_timeout_ms", "tcp_nodelay"]

def part : Part Draft Tuning where
  title := "EngineConfig"
  settings := settings
  blank := {}
  set d name v := match name with
    | "buffer_size" => fill name d.bufferSize (natural "usize" 64 v) fun x => { d with bufferSize := some x }
    | "poll_timeout_ms" => fill name d.pollTimeout (natural "u64" 64 v) fun x => { d with pollTimeout := some x }
    | "retry_delay_ms" => fill name d.retryDelay (natural "u64" 64 v) fun x => { d with retryDelay := some x }
    | "connect_timeout_ms" =>
      fill name d.connectTimeout (natural "u64" 64 v) fun x => { d with connectTimeout := some x }
    | "tcp_nodelay" => fill name d.noDelay (truth v) fun x => { d with noDelay := some x }
    | _ => .error (.unknownField name settings)
  finish d := .ok {
    bufferSize := d.bufferSize.getD 2048
    pollTimeout := d.pollTimeout.getD 500
    retryDelay := d.retryDelay.getD 30000
    connectTimeout := d.connectTimeout.getD 5000
    noDelay := d.noDelay.getD true }

end Tuning

namespace LogFormat

def ofName (name : String) : Shape LogFormat :=
  match name with
  | "pretty" => .ok .pretty
  | "json" => .ok .json
  | "compact" => .ok .compact
  | _ => .error (.unknownVariant name ["pretty", "json", "compact"])

/-- A name, or a table with the name as its one key and nothing under it. -/
def read : Value → Shape LogFormat
  | .string name => ofName name
  | .table [(name, v)] => do
    let format ← ofName name
    match v with
    | .table [] => return format
    | .array [] => return format
    | _ => throw .unspecified
  | _ => .error .unspecified

end LogFormat

namespace Logging

structure Draft where
  level : Option String := none
  format : Option LogFormat := none
  timestamps : Option Bool := none

def part : Part Draft Logging where
  title := "LoggingConfig"
  settings := ["level", "format", "timestamps"]
  blank := {}
  set d name v := match name with
    | "level" => fill name d.level (text v) fun x => { d with level := some x }
    | "format" => fill name d.format (LogFormat.read v) fun x => { d with format := some x }
    | "timestamps" => fill name d.timestamps (truth v) fun x => { d with timestamps := some x }
    | _ => .error (.unknownField name ["level", "format", "timestamps"])
  finish d := .ok {
    level := d.level.getD "info"
    format := d.format.getD .pretty
    timestamps := d.timestamps.getD true }

end Logging

structure Draft where
  server : Option Server := none
  identity : Option Identity := none
  channels : Option (List Channel) := none
  tuning : Option Tuning := none
  logging : Option Logging := none

def settings : List String := ["server", "identity", "channels", "engine", "logging"]

def part : Part Draft Config where
  title := "Config"
  settings := settings
  blank := {}
  set d name v := match name with
    | "server" => fill name d.server (Server.part.read v) fun x => { d with server := some x }
    | "identity" => fill name d.identity (Identity.part.read v) fun x => { d with identity := some x }
    | "channels" => fill name d.channels (sequence Channel.part.read v) fun x => { d with channels := some x }
    | "engine" => fill name d.tuning (Tuning.part.read v) fun x => { d with tuning := some x }
    | "logging" => fill name d.logging (Logging.part.read v) fun x => { d with logging := some x }
    | _ => .error (.unknownField name settings)
  finish d := do
    return {
      server := ← require "server" d.server
      identity := ← require "identity" d.identity
      channels := d.channels.getD []
      tuning := d.tuning.getD {}
      logging := d.logging.getD {} }

abbrev File := Option Bytes

inductive LoadError where
  | noFile
  | notText
  | malformed
  | shape (e : ShapeError)
  | invalid (e : Invalid)
  deriving Repr, DecidableEq

def ofEntries (entries : List (String × Value)) : Except LoadError Config := do
  let config ← (part.read (.table entries)).mapError .shape
  config.validate.mapError .invalid
  return config

def ofText (s : String) : Except LoadError Config :=
  match Toml.Document.read s with
  | none => .error .malformed
  | some entries => ofEntries entries

def load (file : File) : Except LoadError Config :=
  match file with
  | none => .error .noFile
  | some bytes =>
    match Utf8.decode? bytes with
    | none => .error .notText
    | some s => ofText s

end IrcLink.Config
