/-!
# Quoted runs

A quoted run stands between two quotes, and a quote inside it is written twice.
-/

namespace Timeslice.Quoted

def double (q : Char) : List Char → List Char
  | [] => []
  | c :: rest => if c = q then q :: q :: double q rest else c :: double q rest

def enclose (q : Char) (cs : List Char) : List Char :=
  q :: (double q cs ++ [q])

/-- What stands up to the closing quote, and what comes after it. -/
def close (q : Char) : List Char → Option (List Char × List Char)
  | [] => none
  | [c] => if c = q then some ([], []) else none
  | c :: d :: rest =>
    if c = q then
      if d = q then (close q rest).map fun r => (q :: r.1, r.2) else some ([], d :: rest)
    else (close q (d :: rest)).map fun r => (c :: r.1, r.2)

theorem close_enclose (q : Char) (cs rest : List Char) (h : rest.head? ≠ some q) :
    close q (double q cs ++ q :: rest) = some (cs, rest) := by
  induction cs with
  | nil =>
    cases rest with
    | nil => simp [double, close]
    | cons d rest => simp_all [double, close]
  | cons c cs ih =>
    by_cases hc : c = q
    · simp [double, close, hc, ih]
    · have hne : double q cs ++ q :: rest ≠ [] := by simp
      obtain ⟨d, tail, hd⟩ := List.exists_cons_of_ne_nil hne
      simp only [double, hc, if_false, List.cons_append, hd]
      rw [close, if_neg hc, ← hd, ih]
      rfl

theorem length_close_lt {q : Char} {cs : List Char} {r : List Char × List Char}
    (h : close q cs = some r) : r.2.length < cs.length := by
  induction cs using close.induct (q := q) generalizing r with
  | case1 => simp [close] at h
  | case2 => simp_all [close]; subst h; simp
  | case3 c hc => simp [close, hc] at h
  | case4 rest ih =>
    simp only [close, if_true, Option.map_eq_some_iff] at h
    obtain ⟨s, hs, rfl⟩ := h
    have := ih hs
    simp only [List.length_cons]
    omega
  | case5 d rest hd =>
    simp only [close, if_true, hd, if_false, Option.some.injEq] at h
    subst h
    simp
  | case6 c d rest hc ih =>
    simp only [close, hc, if_false, Option.map_eq_some_iff] at h
    obtain ⟨s, hs, rfl⟩ := h
    have := ih hs
    simp only [List.length_cons] at this ⊢
    omega

end Timeslice.Quoted
