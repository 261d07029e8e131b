/-
  Reading expressions from tokens.

      target     := expression ( t comparison operand )?
      expression := term ( (+|-) term )*
      term       := factor ( (*|/) factor )*
      factor     := dice | atom
      dice       := dh ( a operand | d operand )* modifiers
                  | operand? d operand modifiers
                  | operand? df modifiers
      atom       := number | variable | ( expression )

  1. **One token decides** everywhere but at `factor`: a number may be a constant or a count of
     dice.  A factor is tried as dice; where the tokens do not fit, it is read again as an atom from
     where it began, and the failure is noted.  A defect is not tried again.
  2. **Why reading ends** — parentheses nest only as deep as allowed, so `expressionAt` counts down
     the room left for them; every other repetition takes at least one token a round, so the
     tokens unread at its start bound its rounds, and they are handed along as `rounds`.
  3. **Where reading stops it may go on**: the cursor that comes out, after a failure too, can be
     read from again.  What nesting was open when a reading failed stays open.
-/
import Tabletop.Event
import Tabletop.Text.Case

namespace Tabletop

/-! ## The cursor -/

/-- A place in a list of tokens.

    `last` closes the list and is never passed; `unread` is what lies before it.  `passed` counts
    the tokens behind, `nesting` the parentheses open here, and `notes` holds what was worth
    noting. -/
structure Cursor where
  unread : List Token
  last : Token
  passed : Nat := 0
  nesting : Nat := 0
  notes : Array Event := #[]
  deriving DecidableEq

namespace Cursor

/-- The token at the cursor. -/
def current (c : Cursor) : Token := c.unread.headD c.last

/-- The cursor one token on; at the last token it stays. -/
def next (c : Cursor) : Cursor :=
  match c.unread with
  | [] => c
  | _ :: rest => { c with unread := rest, passed := c.passed + 1 }

/-- The token that ends a list that lacks one: it stands right behind the others. -/
def closing (tokens : List Token) : Token :=
  match tokens.getLast? with
  | none => ⟨.finish, "", 0⟩
  | some t => ⟨.finish, "", t.position + t.text.length⟩

/-- The cursor at the beginning of a list of tokens, which is closed if it is not yet. -/
def ofTokens (tokens : List Token) : Cursor :=
  match tokens.getLast? with
  | some t =>
    if t.kind = .finish then { unread := tokens.dropLast, last := t }
    else { unread := tokens, last := closing tokens }
  | none => { unread := [], last := closing [] }

end Cursor

/-! ## Readers -/

/-- A reading from a cursor: a value or a fault, and the cursor where it stopped. -/
abbrev Reader (α : Type) := EStateM Fault Cursor α

namespace Reader

/-- The token at the cursor. -/
def current : Reader Token := fun c => .ok c.current c

/-- Takes the token at the cursor. -/
def take : Reader Token := fun c => .ok c.current c.next

/-- Fails because of a token. -/
def refuse {α : Type} (cause : MisfitCause) (token : Token) : Reader α :=
  throw (.expr (.misfit ⟨cause, token⟩))

/-- Takes a token of the given kind. -/
def expect (kind : TokenKind) : Reader Token := do
  let token ← current
  if token.kind = kind then take else refuse (.expected kind) token

/-- The tokens unread: as many rounds as a repetition can go. -/
def rounds : Reader (List Token) := fun c => .ok c.unread c

/-! ### Operands -/

/-- Reads a number. -/
def number : Reader Int := do
  let token ← expect .number
  if token.text.length > numberLengthLimit then refuse .longNumber token
  else match Numeral.read? token.text.toList with
    | some n => pure n
    | none => throw (.defect (.unreadableNumber token.text))

/-- Reads a variable: what follows its mark, in upper case. -/
def name : Reader String := do
  let token ← expect .named
  match Text.upper (token.text.toList.drop 1) with
  | [] => refuse .nameMissing token
  | cs => pure (String.ofList cs)

/-- Reads an operand. -/
def operand : Reader Operand := do
  let token ← current
  match token.kind with
  | .number => .number <$> number
  | .named => .named <$> name
  | _ => refuse .operandMissing token

/-- The comparison that a token is the text of. -/
def comparison (token : Token) : Reader Comparison :=
  match Comparison.ofSymbol? token.text with
  | some c => pure c
  | none => throw (.defect (.unknownComparison token.text))

/-! ### Modifiers -/

/-- What the word of a modifier asks for. -/
inductive Request where
  | selection (action : SelectionAction) (extreme : Extreme)
  | explosion
  | reroll (mode : RerollMode)
  deriving DecidableEq, Repr

/-- The words of the modifiers. -/
def requests : List (String × Request) := [
  ("kh", .selection .keep .high), ("k", .selection .keep .high), ("kl", .selection .keep .low),
  ("dh", .selection .drop .high), ("dl", .selection .drop .low), ("!", .explosion),
  ("r", .reroll .once), ("ro", .reroll .continuous)]

/-- A comparison, where one stands at the cursor. -/
def comparison? : Reader (Option Comparison) := do
  if (← current).kind = .comparison then some <$> (comparison (← take)) else pure none

/-- Reads the rest of a modifier whose first token was taken.  A bare comparison counts successes;
    an explosion needs no condition; a reroll without a comparison takes low faces. -/
def modifier (token : Token) : Reader Modifier := do
  if token.kind = .comparison then
    let op ← comparison token
    return .successCheck ⟨op, ← operand⟩
  else match requests.lookup token.text with
    | some (.selection action extreme) => return .selection ⟨action, extreme, ← operand⟩
    | some .explosion =>
      match ← comparison? with
      | some op => return .explosion ⟨op, some (← operand), none⟩
      | none => return .explosion ⟨.ge, none, none⟩
    | some (.reroll mode) =>
      let op ← comparison?
      return .reroll ⟨mode, op.getD .le, ← operand⟩
    | none => refuse .unexpected token

/-- Reads modifiers while tokens begin one. -/
def modifiersFrom : List Token → Reader (List Modifier)
  | [] => pure []
  | _ :: rounds => do
    let token ← current
    if token.kind = .modifier ∨ token.kind = .comparison then
      let m ← modifier (← take)
      let more ← modifiersFrom rounds
      pure (m :: more)
    else pure []

/-- Reads the modifiers of a dice term. -/
def modifiers : Reader (List Modifier) := do modifiersFrom (← rounds)

/-! ### Dice terms -/

/-- Reads the pools of a Hope/Fear roll, in any order; of two counts for one pool the later one
    stands. -/
def poolsFrom (advantage disadvantage : Operand) : List Token → Reader (Operand × Operand)
  | [] => pure (advantage, disadvantage)
  | _ :: rounds => do
    match (← current).kind with
    | .advantage =>
      let _ ← take
      poolsFrom (← operand) disadvantage rounds
    | .dice =>
      let _ ← take
      poolsFrom advantage (← operand) rounds
    | _ => pure (advantage, disadvantage)

/-- Reads a Hope/Fear roll. -/
def hopeFear : Reader Expr := do
  let _ ← expect .hopeFear
  let pools ← poolsFrom (.number 0) (.number 0) (← rounds)
  return .hopeFear pools.1 pools.2 (← modifiers)

/-- Reads the size and the modifiers of a dice term. -/
def sidesAndModifiers (count : Operand) : Reader Expr := do
  let token ← current
  match token.kind with
  | .dice =>
    let _ ← take
    let size ← current
    if size.kind = .number ∨ size.kind = .named then
      let sides ← operand
      return .dice count (.faces sides) (← modifiers)
    else refuse .sidesMissing size
  | .fate =>
    let _ ← take
    return .dice count .fate (← modifiers)
  | _ => refuse .unexpected token

/-- Reads a dice term; one die is meant where no count stands. -/
def dice : Reader Expr := do
  match (← current).kind with
  | .hopeFear => hopeFear
  | .number | .named => sidesAndModifiers (← operand)
  | _ => sidesAndModifiers (.number 1)

/-! ### Arithmetic -/

/-- One parenthesis more is open. -/
def openParen : Reader Unit := modify fun c => { c with nesting := c.nesting + 1 }

/-- One parenthesis less is open. -/
def closeParen : Reader Unit := modify fun c => { c with nesting := c.nesting - 1 }

/-- Reads an atom.  `inner` reads what stands in parentheses; without it there is no room for them
    within `limit`. -/
def atom (limit : Int) (inner : Option (Reader Expr)) : Reader Expr := do
  let token ← current
  match token.kind with
  | .number => .number <$> number
  | .named => .named <$> name
  | .openParen =>
    openParen
    match inner with
    | none => refuse (.nestedTooDeep limit) token
    | some expression =>
      let _ ← take
      let e ← expression
      let _ ← expect .closeParen
      closeParen
      return e
  | _ => refuse .unexpected token

/-- Reads a factor: dice, or else an atom from the same place. -/
def factor (atom : Reader Expr) : Reader Expr := fun c =>
  match dice c with
  | .ok e c' => .ok e c'
  | .error (.expr (.misfit failure)) _ =>
    atom { c with notes := c.notes.push (.retried c.passed failure) }
  | .error fault c' => .error fault c'

/-- The operator of a token, if it is one of those given. -/
def operatorOf (accepted : List Operator) (token : Token) : Option Operator :=
  if token.kind = .operator then accepted.find? (·.symbol == token.text) else none

/-- Reads what follows `left`: operators, each with an operand on its right, grouped to the left. -/
def chainFrom (accepted : List Operator) (operand : Reader Expr) :
    List Token → Expr → Reader Expr
  | [], left => pure left
  | _ :: rounds, left => do
    match operatorOf accepted (← current) with
    | none => pure left
    | some op =>
      let _ ← take
      let right ← operand
      chainFrom accepted operand rounds (.binary op left right)

/-- Reads operands with operators between them, grouped to the left. -/
def chain (accepted : List Operator) (operand : Reader Expr) : Reader Expr := do
  let first ← operand
  chainFrom accepted operand (← rounds) first

/-- Reads sums of products of factors. -/
def sum (atom : Reader Expr) : Reader Expr :=
  chain [.add, .sub] (chain [.mul, .div] (factor atom))

/-- Reads an expression with room for so many parentheses inside one another. -/
def expressionAt (limit : Int) : Nat → Reader Expr
  | 0 => sum (atom limit none)
  | room + 1 => sum (atom limit (some (expressionAt limit room)))

/-- Reads an expression and the target check that may follow it. -/
def target (expression : Reader Expr) : Reader Expr := do
  let e ← expression
  if (← current).kind = .target then
    let _ ← take
    let op ← comparison (← expect .comparison)
    return .target e op (← operand)
  else return e

/-- Reads a whole list of tokens from where the cursor stands, with parentheses at most `limit`
    deep. -/
def whole (limit : Int) : Reader Expr := fun c =>
  (do
    let e ← target (expressionAt limit (limit - c.nesting).toNat)
    let token ← current
    if token.kind = .finish then return e else refuse .unexpected token : Reader Expr) c

end Reader

/-! ## Whole texts -/

/-- The expression that tokens stand for, or a fault; with what was noted on the way. -/
def Expr.ofTokens (limit : Int) (tokens : List Token) : Except Fault Expr × Array Event :=
  match Reader.whole limit (Cursor.ofTokens tokens) with
  | .ok e c => (.ok e, c.notes)
  | .error fault c => (.error fault, c.notes)

end Tabletop
