import FormCompiler.Expansion.Rules

/-!
# Built-in abbreviations

`(let %x T v)` abbreviates `(as %x T v)`, `(set! %x v)` is `(assign %x v)`,
`(when c b ..)` is `(if c [b ..])`, `(unless c b ..)` is `(if c [] [b ..])`
and `(loop b ..)` is `(while true [b ..])`.  A form of the wrong length is
left alone.  The longer form stands where the abbreviation stood.
-/

namespace FormCompiler.Sugar

/-- `(head argument ..)` at the place of `form`. -/
def replace (form : Form) (head : String) (arguments : List Form) : Form :=
  .group form.note.positionOnly .list (Form.symbol head :: arguments)

def letRule (form : Form) : Option Form :=
  match form.list? with
  | some [_, target, type, initial] =>
      some (replace form "as" [target, type, initial])
  | _ => none

def setRule (form : Form) : Option Form :=
  match form.list? with
  | some [_, target, source] => some (replace form "assign" [target, source])
  | _ => none

def whenRule (form : Form) : Option Form :=
  match form.list? with
  | some (_ :: condition :: body) =>
      some (replace form "if" [condition, Form.vector body])
  | _ => none

def unlessRule (form : Form) : Option Form :=
  match form.list? with
  | some (_ :: condition :: body) =>
      some (replace form "if" [condition, Form.vector [], Form.vector body])
  | _ => none

def loopRule (form : Form) : Option Form :=
  match form.list? with
  | some (_ :: body) =>
      some (replace form "while" [Form.bool true, Form.vector body])
  | _ => none

def rules : ExpansionRules :=
  { byHead :=
      [("let", letRule), ("set!", setRule), ("when", whenRule),
        ("unless", unlessRule), ("loop", loopRule)] }

end FormCompiler.Sugar
