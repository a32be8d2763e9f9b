import RecordQuery.Proofs.Grammar.Steps

/-! # Reading with one token of lookahead

A parser decides by the first token that it has not taken. So neither what it reads nor a token that
it refuses depends on what stands further on. A refusal is prompt if the tokens before the refused
one could still have gone on well; what is viable in that sense depends on where the parser is used.
-/

namespace RecordQuery.Parser

variable {α β : Type}

/-- A parser in the plain view: from tokens to a value and the tokens that remain. -/
abbrev Run (α : Type) := List Token → Except SyntaxError (α × List Token)

/-- What a run makes of some tokens does not depend on what follows the first token that it leaves,
or the one that it refuses. The tokens before a refused one are viable. -/
structure Prompt (viable : List TokenKind → Prop) (run : Run α) (ts : List Token) : Prop where
  reads : ∀ a rest, run ts = .ok (a, rest) → ∃ front, ts = front ++ rest ∧
    ∀ rest', rest'.head? = rest.head? → run (front ++ rest') = .ok (a, rest')
  refuses : ∀ t, run ts = .error (.unexpectedToken t) → ∃ front after, ts = front ++ t :: after ∧
    viable (front.map Token.kind) ∧ ∀ more, run (front ++ t :: more) = .error (.unexpectedToken t)

namespace Prompt

variable {viable viable' : List TokenKind → Prop} {run run' : Run α} {ts after : List Token}
  {token : Token}

theorem mono (h : Prompt viable run ts) (hle : ∀ us, viable us → viable' us) :
    Prompt viable' run ts := by
  refine ⟨h.reads, fun t ht => ?_⟩
  obtain ⟨front, after, hts, hviable, hmore⟩ := h.refuses t ht
  exact ⟨front, after, hts, hle _ hviable, hmore⟩

/-! ## Runs that end at once -/

theorem done (a : α) : Prompt viable (fun ts => .ok (a, ts)) ts := by
  constructor
  · intro b rest h
    simp only [Except.ok.injEq, Prod.mk.injEq] at h
    obtain ⟨rfl, rfl⟩ := h
    exact ⟨[], rfl, fun _ _ => rfl⟩
  · intro t h
    cases h

theorem unexpected (h : ∀ more, run (token :: more) = .error (.unexpectedToken token))
    (hviable : viable []) : Prompt viable run (token :: after) := by
  constructor
  · intro a rest hrun
    rw [h] at hrun
    cases hrun
  · intro t hrun
    rw [h] at hrun
    obtain rfl := SyntaxError.unexpectedToken.inj (Except.error.inj hrun)
    exact ⟨[], after, rfl, hviable, h⟩

/-- Other errors name no token. -/
theorem failed {e : SyntaxError} (h : run ts = .error e) (he : ∀ t, e ≠ .unexpectedToken t) :
    Prompt viable run ts := by
  constructor
  · intro a rest hrun
    rw [h] at hrun
    cases hrun
  · intro t hrun
    rw [h] at hrun
    exact absurd (Except.error.inj hrun) (he t)

/-! ## Runs put together -/

/-- The first token may decide which run it is. -/
theorem congr (h : ∀ ts', ts'.head? = ts.head? → run ts' = run' ts')
    (hrun' : Prompt viable run' ts) : Prompt viable run ts := by
  constructor
  · intro a rest hrun
    rw [h ts rfl] at hrun
    obtain ⟨front, rfl, hfront⟩ := hrun'.reads a rest hrun
    refine ⟨front, rfl, fun rest' hrest => ?_⟩
    rw [h _ (by rw [List.head?_append, List.head?_append, hrest])]
    exact hfront rest' hrest
  · intro t hrun
    rw [h ts rfl] at hrun
    obtain ⟨front, after, rfl, hviable, hmore⟩ := hrun'.refuses t hrun
    refine ⟨front, after, rfl, hviable, fun more => ?_⟩
    rw [h _ (by rw [List.head?_append, List.head?_append]; rfl)]
    exact hmore more

/-- A run that takes a token and goes on. -/
theorem cons (h : ∀ rest, run (token :: rest) = run' rest)
    (hrun' : Prompt (fun us => viable (token.kind :: us)) run' after) :
    Prompt viable run (token :: after) := by
  constructor
  · intro a rest hrun
    rw [h] at hrun
    obtain ⟨front, rfl, hfront⟩ := hrun'.reads a rest hrun
    exact ⟨token :: front, rfl, fun rest' hrest => (h _).trans (hfront rest' hrest)⟩
  · intro t hrun
    rw [h] at hrun
    obtain ⟨front, rest, rfl, hviable, hmore⟩ := hrun'.refuses t hrun
    exact ⟨token :: front, rest, rfl, hviable, fun more => (h _).trans (hmore more)⟩

/-- A run after another one. What is viable for it depends on what the other one has taken. -/
theorem bind {next : α × List Token → Except SyntaxError (β × List Token)}
    (hrun : Prompt viable run ts)
    (hnext : ∀ front a rest, ts = front ++ rest → run ts = .ok (a, rest) →
      Prompt (fun us => viable (front.map Token.kind ++ us)) (fun us => next (a, us)) rest) :
    Prompt viable (fun ts => (run ts).bind next) ts := by
  constructor
  · intro b rest h
    obtain ⟨⟨a, mid⟩, ha, hb⟩ := bind_eq_ok_iff.mp h
    obtain ⟨front, hts, hfront⟩ := hrun.reads a mid ha
    obtain ⟨front', rfl, hfront'⟩ := (hnext front a mid hts ha).reads b rest hb
    refine ⟨front ++ front', by rw [hts, List.append_assoc], fun rest' hrest => ?_⟩
    -- The first token after the first run is taken by the second one, or it is left by both.
    have hmid : (front' ++ rest').head? = (front' ++ rest).head? := by
      rw [List.head?_append, List.head?_append, hrest]
    rw [List.append_assoc]
    exact bind_eq_ok_iff.mpr ⟨_, hfront _ hmid, hfront' rest' hrest⟩
  · intro t h
    rcases bind_eq_error_iff.mp h with ht | ⟨⟨a, mid⟩, ha, ht⟩
    · obtain ⟨front, after, hts, hviable, hmore⟩ := hrun.refuses t ht
      exact ⟨front, after, hts, hviable, fun more => bind_eq_error_iff.mpr (.inl (hmore more))⟩
    · obtain ⟨front, hts, hfront⟩ := hrun.reads a mid ha
      obtain ⟨front', after, rfl, hviable, hmore⟩ := (hnext front a mid hts ha).refuses t ht
      refine ⟨front ++ front', after, by rw [hts, List.append_assoc], ?_, fun more => ?_⟩
      · rw [List.map_append]
        exact hviable
      · have hmid : (front' ++ t :: more).head? = (front' ++ t :: after).head? := by
          rw [List.head?_append, List.head?_append]
          rfl
        rw [List.append_assoc]
        exact bind_eq_error_iff.mpr (.inr ⟨_, hfront _ hmid, hmore more⟩)

theorem map (f : α → β) (h : Prompt viable run ts) :
    Prompt viable (fun ts => (run ts).map fun q => (f q.1, q.2)) ts :=
  h.bind fun _ a _ _ _ => done (f a)

end Prompt

theorem prompt_expect {viable : List TokenKind → Prop} (hviable : viable []) (p : Punct)
    (ts : List Token) : Prompt viable (fun ts => plain (expect p ts)) ts := by
  rcases ts with _ | ⟨⟨kind, pos⟩, after⟩
  · exact .failed rfl nofun
  · by_cases hkind : kind = .punct p
    · subst hkind
      exact .cons (plain_expect p pos) (.done ())
    · refine .unexpected (fun more => ?_) hviable
      simp [expect, hkind]

end RecordQuery.Parser
