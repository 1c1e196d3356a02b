import IrcLink.Decimal.Binary64

/-!
What a configuration document says, once its notation is gone: a tree whose tables list their entries in the order
of the document.
-/

namespace IrcLink.Toml

inductive Value where
  | string (s : String)
  | integer (n : Int)
  | float (x : Binary64)
  | boolean (b : Bool)
  /-- A date, a time or both. Nothing here asks which. -/
  | moment
  | array (items : List Value)
  | table (entries : List (String × Value))
  deriving Repr

end IrcLink.Toml
