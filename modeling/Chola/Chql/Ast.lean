import Chola.Core.Job

namespace Chola.Chql

inductive CmpOp
  | eq
  | neq
  | gt
  | gte
  | lt
  | lte
  | ilikeContains
  | regex
  | wildcard
  deriving DecidableEq, Repr

inductive ValueKind
  | str
  | num
  | date
  deriving DecidableEq, Repr

inductive Value (ν : Type)
  | str (v : String)
  | num (v : ν)
  | date (v : String)
  deriving DecidableEq, Repr

inductive Ast (ν : Type)
  | and (left right : Ast ν)
  | or (left right : Ast ν)
  | not (expr : Ast ν)
  | cmp (field : String) (op : CmpOp) (value : Value ν)
  | inRange (field : String) (lo hi : Value ν)
  deriving DecidableEq, Repr

variable {ν : Type}

def Value.kind : Value ν → ValueKind
  | .str _ => .str
  | .num _ => .num
  | .date _ => .date

def Ast.leaves : Ast ν → List (Ast ν)
  | .and left right => left.leaves ++ right.leaves
  | .or left right => left.leaves ++ right.leaves
  | .not expr => expr.leaves
  | .cmp field op value => [.cmp field op value]
  | .inRange field lo hi => [.inRange field lo hi]

def Ast.values : Ast ν → List (Value ν)
  | .and left right => left.values ++ right.values
  | .or left right => left.values ++ right.values
  | .not expr => expr.values
  | .cmp _ _ value => [value]
  | .inRange _ lo hi => [lo, hi]

/-- Trees of one shape, with the same fields and operators and with values of the same kinds. -/
inductive Alike : Ast ν → Ast ν → Prop
  | and {left left' right right' : Ast ν} (lefts : Alike left left') (rights : Alike right right') :
      Alike (.and left right) (.and left' right')
  | or {left left' right right' : Ast ν} (lefts : Alike left left') (rights : Alike right right') :
      Alike (.or left right) (.or left' right')
  | not {expr expr' : Ast ν} (inner : Alike expr expr') : Alike (.not expr) (.not expr')
  | cmp (field : String) (op : CmpOp) {value value' : Value ν} (kinds : value.kind = value'.kind) :
      Alike (.cmp field op value) (.cmp field op value')
  | inRange (field : String) {lo lo' hi hi' : Value ν} (los : lo.kind = lo'.kind)
    (his : hi.kind = hi'.kind) : Alike (.inRange field lo hi) (.inRange field lo' hi')

end Chola.Chql
