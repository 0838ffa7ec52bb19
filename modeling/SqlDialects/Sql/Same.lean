import SqlDialects.Sql.Statement

/-!
# Sameness of trees

Two trees are the same if they have the same nodes and their literals the same values.
-/

namespace SqlDialects.Sql

mutual

def Expression.same : Expression → Expression → Bool
  | .column q n, .column q' n' => q == q' && n == n'
  | .literal v, .literal v' => v.sameValue v'
  | .parameter p, .parameter p' => p == p'
  | .call n as, .call n' as' => n == n' && Expression.allSame as as'
  | .aggregate f d a, .aggregate f' d' a' => f == f' && d == d' && Expression.optionSame a a'
  | .extract u s, .extract u' s' => u == u' && s.same s'
  | .timestampAdd u m t, .timestampAdd u' m' t' => u == u' && m.same m' && t.same t'
  | .timestampDiff u s f, .timestampDiff u' s' f' => u == u' && s.same s' && f.same f'
  | .format s p, .format s' p' => s.same s' && p == p'
  | .binary l o r, .binary l' o' r' => l.same l' && o == o' && r.same r'
  | .negate e, .negate e' => e.same e'
  | .case bs o, .case bs' o' => CaseBranch.allSame bs bs' && Expression.optionSame o o'
  | .cast s t, .cast s' t' => s.same s' && t == t'
  | .subquery q, .subquery q' => q.same q'
  | .tuple es, .tuple es' => Expression.allSame es es'
  | .star q, .star q' => q == q'
  | _, _ => false

def Expression.allSame : List Expression → List Expression → Bool
  | [], [] => true
  | e :: es, e' :: es' => e.same e' && Expression.allSame es es'
  | _, _ => false

def Expression.optionSame : Option Expression → Option Expression → Bool
  | none, none => true
  | some e, some e' => e.same e'
  | _, _ => false

def CaseBranch.allSame :
    List (CaseBranch Condition Expression) → List (CaseBranch Condition Expression) → Bool
  | [], [] => true
  | ⟨p, e⟩ :: bs, ⟨p', e'⟩ :: bs' => p.same p' && e.same e' && CaseBranch.allSame bs bs'
  | _, _ => false

def Condition.same : Condition → Condition → Bool
  | .compare l o r, .compare l' o' r' => l.same l' && o == o' && r.same r'
  | .all ps, .all ps' => Condition.allSame ps ps'
  | .any ps, .any ps' => Condition.allSame ps ps'
  | .not p, .not p' => p.same p'
  | .isNull e n, .isNull e' n' => e.same e' && n == n'
  | .inList e es n, .inList e' es' n' => e.same e' && Expression.allSame es es' && n == n'
  | .inQuery e q n, .inQuery e' q' n' => e.same e' && q.same q' && n == n'
  | .exists q n, .exists q' n' => q.same q' && n == n'
  | .like e p c i n, .like e' p' c' i' n' =>
    e.same e' && p.same p' && c == c' && i == i' && n == n'
  | .between e l h n, .between e' l' h' n' => e.same e' && l.same l' && h.same h' && n == n'
  | .holds e, .holds e' => e.same e'
  | _, _ => false

def Condition.allSame : List Condition → List Condition → Bool
  | [], [] => true
  | p :: ps, p' :: ps' => p.same p' && Condition.allSame ps ps'
  | _, _ => false

def Condition.optionSame : Option Condition → Option Condition → Bool
  | none, none => true
  | some p, some p' => p.same p'
  | _, _ => false

def Query.same : Query → Query → Bool
  | .spec s, .spec s' => s.same s'
  | .group o qs ks l f, .group o' qs' ks' l' f' =>
    o == o' && Query.allSame qs qs' && SortKey.allSame ks ks' && Expression.optionSame l l' &&
      Expression.optionSame f f'
  | _, _ => false

def Query.allSame : List Query → List Query → Bool
  | [], [] => true
  | q :: qs, q' :: qs' => q.same q' && Query.allSame qs qs'
  | _, _ => false

def QuerySpec.same : QuerySpec → QuerySpec → Bool
  | ⟨d, s, t, w, g, h, k, l, f⟩, ⟨d', s', t', w', g', h', k', l', f'⟩ =>
    d == d' && SelectItem.allSame s s' && FromItem.allSame t t' && Condition.optionSame w w' &&
      Expression.allSame g g' && Condition.optionSame h h' && SortKey.allSame k k' &&
      Expression.optionSame l l' && Expression.optionSame f f'

def SelectItem.allSame : List (SelectItem Expression) → List (SelectItem Expression) → Bool
  | [], [] => true
  | ⟨e, a⟩ :: is, ⟨e', a'⟩ :: is' => e.same e' && a == a' && SelectItem.allSame is is'
  | _, _ => false

def FromItem.allSame : List FromItem → List FromItem → Bool
  | [], [] => true
  | ⟨t, js⟩ :: is, ⟨t', js'⟩ :: is' =>
    t == t' && Join.allSame js js' && FromItem.allSame is is'
  | _, _ => false

def Join.allSame : List Join → List Join → Bool
  | [], [] => true
  | ⟨k, t, p⟩ :: js, ⟨k', t', p'⟩ :: js' =>
    k == k' && t == t' && Condition.optionSame p p' && Join.allSame js js'
  | _, _ => false

def SortKey.allSame : List (SortKey Expression) → List (SortKey Expression) → Bool
  | [], [] => true
  | ⟨e, d, n⟩ :: ks, ⟨e', d', n'⟩ :: ks' =>
    e.same e' && d == d' && n == n' && SortKey.allSame ks ks'
  | _, _ => false

end

end SqlDialects.Sql
