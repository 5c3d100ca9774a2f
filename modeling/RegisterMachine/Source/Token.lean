import RegisterMachine.Source.Position
import RegisterMachine.Text.Quoted

/-!
The tokens of source text.
-/

namespace RegisterMachine.Source

/-- What a token stands for. A newline ends a statement, so it is a token of its own. -/
inductive Symbol where
  | colon
  | comma
  | newline
  | name (text : String)
  | number (value : Nat)
deriving DecidableEq, Repr

/-- The text that shows a symbol in messages. -/
def Symbol.text : Symbol → String
  | .colon => "Colon"
  | .comma => "Comma"
  | .newline => "Newline"
  | .name text => "Ident(" ++ Text.quoted text ++ ")"
  | .number value => "Number(" ++ Numeral.render 10 value ++ ")"

/-- A token covers the characters from `start` up to `stop`. -/
structure Token where
  start : Position
  stop : Position
  symbol : Symbol
deriving DecidableEq, Repr

/-- Characters that form no token, with the position after them. -/
structure Misfit where
  text : String
  stop : Position
  /-- A number ran into the letters of a name. -/
  glued : Bool
deriving DecidableEq, Repr

/-- A text is a sequence of tokens and misfits. -/
inductive Item where
  | token (token : Token)
  | misfit (misfit : Misfit)
deriving DecidableEq, Repr

end RegisterMachine.Source
