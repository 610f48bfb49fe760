import TemplateFormula.Expr

/-!
# Equality of expressions

Two trees are the same if they have the same nodes in the same places. Numbers compare as doubles,
so a tree with a NaN in it differs from itself.
-/

namespace TemplateFormula

mutual

def Expr.same : Expr → Expr → Bool
  | .document as, .document bs => sameExprs as bs
  | .raw s, .raw t => s == t
  | .island a, .island b => a.same b
  | .filter a as, .filter b bs => a.same b && sameCalls as bs
  | .template as, .template bs => sameExprs as bs
  | .templateRaw s, .templateRaw t => s == t
  | .getter a k, .getter b l => a.same b && k.same l
  | .unary o a, .unary p b => o == p && a.same b
  | .binary o a c, .binary p b d => o == p && a.same b && c.same d
  | .conditional a c e, .conditional b d f => a.same b && c.same d && e.same f
  | .variable s, .variable t => s == t
  | .inNamespace s a, .inNamespace t b => s == t && a.same b
  | .identifier s, .identifier t => s == t
  | .literal x, .literal y => x == y
  | .number x, .number y => x == y
  | .text s, .text t => s == t
  | .array as, .array bs => sameExprs as bs
  | .object ms, .object ns => sameMembers ms ns
  | .call s as, .call t bs => s == t && sameExprs as bs
  | .sequence as, .sequence bs => sameExprs as bs
  | .function ps a, .function qs b => ps == qs && a.same b
  | _, _ => false

def sameExprs : List Expr → List Expr → Bool
  | [], [] => true
  | a :: as, b :: bs => a.same b && sameExprs as bs
  | _, _ => false

def sameMembers : List (Expr × Expr) → List (Expr × Expr) → Bool
  | [], [] => true
  | (k, a) :: ms, (l, b) :: ns => k.same l && a.same b && sameMembers ms ns
  | _, _ => false

def FilterCall.same : FilterCall → FilterCall → Bool
  | .mk s as, .mk t bs => s == t && sameArgs as bs

def sameCalls : List FilterCall → List FilterCall → Bool
  | [], [] => true
  | a :: as, b :: bs => a.same b && sameCalls as bs
  | _, _ => false

def FilterArg.same : FilterArg → FilterArg → Bool
  | .text s, .text t => s == t
  | .expr a, .expr b => a.same b
  | .mixed as, .mixed bs => sameArgs as bs
  | _, _ => false

def sameArgs : List FilterArg → List FilterArg → Bool
  | [], [] => true
  | a :: as, b :: bs => a.same b && sameArgs as bs
  | _, _ => false

end

instance : BEq Expr := ⟨Expr.same⟩

end TemplateFormula
