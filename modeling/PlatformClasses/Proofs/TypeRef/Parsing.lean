import PlatformClasses.Proofs.Outcome
import PlatformClasses.Proofs.TypeRef.Scanning

/-!
# Parsing type references

The parser is compared with derivations, over the tokens of lexemes.  Given what is derived and tokens
that cannot go on a reference, it reads the derived reference and leaves those tokens
(`Derivation.parseTokens_lexemes`); and whatever it reads is derived (`reads_parse`).  Both are
inductions over the three parsers at once, for references, type arguments and the arguments after the
first.

The parser stops by itself: it takes a token before it goes deeper, so a number of steps that exceeds
the number of tokens makes no difference (`agreeBelow_parse`).
-/

namespace PlatformClasses.TypeRef

/-! ## Tokens that go on a reference -/

namespace Token

/-- The bracket that opens type arguments. -/
def isLess : Token → Bool
  | less => true
  | _ => false

/-- A nullable mark. -/
def isQuestion : Token → Bool
  | question => true
  | _ => false

/-- A rank. -/
def isRank : Token → Bool
  | rank _ => true
  | _ => false

/-- A token that goes on the reference before it. -/
def goesOn (t : Token) : Bool := t.isLess || t.isQuestion || t.isRank

end Token

/-- The tokens of lexemes. -/
def tokensOf (ls : List Lexeme) : List Token := ls.map Lexeme.token

@[simp] theorem tokensOf_nil : tokensOf [] = [] := rfl

@[simp] theorem tokensOf_cons (l : Lexeme) (ls : List Lexeme) :
    tokensOf (l :: ls) = l.token :: tokensOf ls := rfl

@[simp] theorem tokensOf_append (ls ls' : List Lexeme) :
    tokensOf (ls ++ ls') = tokensOf ls ++ tokensOf ls' := List.map_append

@[simp] theorem length_tokensOf (ls : List Lexeme) : (tokensOf ls).length = ls.length :=
  List.length_map _

theorem Token.goesOn_eq_false_iff {t : Token} :
    t.goesOn = false ↔ t.isLess = false ∧ t.isQuestion = false ∧ t.isRank = false := by
  simp [goesOn, and_assoc]

theorem stops_isRank_of_goesOn {ts : List Token} (h : Stops Token.goesOn ts) :
    Stops Token.isRank ts := fun t ht => (Token.goesOn_eq_false_iff.1 (h t ht)).2.2

/-- Ranks and what ends a reference do not start with a nullable mark. -/
theorem stops_isQuestion_append {ts : List Token} (h : Stops Token.goesOn ts)
    (ranks : List (Blanks × Rank)) :
    Stops Token.isQuestion (tokensOf (rankLexemes ranks) ++ ts) := by
  cases ranks with
  | nil => exact fun t ht => (Token.goesOn_eq_false_iff.1 (h t ht)).2.1
  | cons r ranks => exact stops_cons.2 rfl

/-- What follows the type arguments does not start with their bracket. -/
theorem stops_isLess_append {ts : List Token} (h : Stops Token.goesOn ts) (question : Option Blanks)
    (ranks : List (Blanks × Rank)) :
    Stops Token.isLess
      (tokensOf (questionLexemes question) ++ (tokensOf (rankLexemes ranks) ++ ts)) := by
  cases question with
  | some before => exact stops_cons.2 rfl
  | none =>
      cases ranks with
      | nil => exact fun t ht => (Token.goesOn_eq_false_iff.1 (h t ht)).1
      | cons r ranks => exact stops_cons.2 rfl

/-- After a type argument stands a comma or the closing bracket. -/
theorem MoreArguments.stops_goesOn (more : MoreArguments) (ts : List Token) :
    Stops Token.goesOn (tokensOf more.lexemes ++ ts) := by
  cases more with
  | close before => exact stops_cons.2 rfl
  | comma before next more => exact stops_cons.2 rfl

/-! ## References in sequence -/

/-- Reads type arguments without their opening bracket.  This is what the parsers of type arguments do
after an opening bracket and after a comma. -/
def parseSequence (fuel : Nat) (tokens : List Token) :
    Except ParseError (List TypeRef × List Token) := do
  let (first, rest) ← parseTokens fuel tokens
  let (others, rest) ← parseMore fuel rest
  return (first :: others, rest)

theorem parseArguments_less (fuel : Nat) (rest : List Token) :
    parseArguments (fuel + 1) (.less :: rest) = parseSequence fuel rest := rfl

theorem parseMore_comma (fuel : Nat) (rest : List Token) :
    parseMore (fuel + 1) (.comma :: rest) = parseSequence fuel rest := rfl

/-! ## The parser follows derivations -/

/-- Ranks are parsed as far as they go. -/
theorem parseRanks_append {ts : List Token} (h : Stops Token.isRank ts)
    (ranks : List (Blanks × Rank)) :
    parseRanks (tokensOf (rankLexemes ranks) ++ ts) = (ranks.map fun r => rankOf r.2.inner, ts) := by
  induction ranks with
  | nil =>
      cases ts with
      | nil => rfl
      | cons t ts =>
          cases t with
          | rank text => exact absurd (h _ rfl) (by simp [Token.isRank])
          | _ => rfl
  | cons r ranks ih =>
      show parseRanks (.rank (rankOf r.2.inner) :: (tokensOf (rankLexemes ranks) ++ ts)) = _
      rw [parseRanks, ih]
      rfl

/-- A question mark is parsed if there is one. -/
theorem parseNullable_append {ts : List Token} (h : Stops Token.isQuestion ts)
    (question : Option Blanks) :
    parseNullable (tokensOf (questionLexemes question) ++ ts) = (question.isSome, ts) := by
  cases question with
  | some before => rfl
  | none =>
      cases ts with
      | nil => rfl
      | cons t ts =>
          cases t with
          | question => exact absurd (h _ rfl) (by simp [Token.isQuestion])
          | _ => rfl

/-- A type and the ones after it are parsed one after the other. -/
theorem parseSequence_append {fuel : Nat} {first : Derivation} {more : MoreArguments}
    {ts : List Token}
    (hfirst : parseTokens fuel (tokensOf first.lexemes ++ (tokensOf more.lexemes ++ ts)) =
      .ok (first.tree, tokensOf more.lexemes ++ ts))
    (hmore : parseMore fuel (tokensOf more.lexemes ++ ts) = .ok (more.trees, ts)) :
    parseSequence fuel (tokensOf (first.lexemes ++ more.lexemes) ++ ts) =
      .ok (first.tree :: more.trees, ts) := by
  rw [tokensOf_append, List.append_assoc, parseSequence, hfirst]
  show (do let (others, rest) ← parseMore fuel (tokensOf more.lexemes ++ ts)
           return (first.tree :: others, rest)) = _
  rw [hmore]
  rfl

mutual
/-- The parser reads what is derived, given a step more than there are tokens. -/
theorem Derivation.parseTokens_lexemes : ∀ (d : Derivation) {fuel : Nat} {ts : List Token},
    d.lexemes.length < fuel → Stops Token.goesOn ts →
      parseTokens fuel (tokensOf d.lexemes ++ ts) = .ok (d.tree, ts)
  | .mk before name arguments question ranks, fuel, ts, hfuel, hts => by
      cases fuel with
      | zero => omega
      | succ fuel =>
          have hlength : arguments.lexemes.length < fuel := by
            simp only [Derivation.lexemes, List.length_cons, List.length_append] at hfuel
            omega
          have harguments := arguments.parseArguments_lexemes hlength
            (stops_isLess_append hts question ranks)
          have hnullable := parseNullable_append (stops_isQuestion_append hts ranks) question
          have hranks := parseRanks_append (stops_isRank_of_goesOn hts) ranks
          simp only [Derivation.lexemes, tokensOf_cons, tokensOf_append, List.cons_append,
            List.append_assoc]
          show parseTokens (fuel + 1) (.name _ :: _) = _
          rw [parseTokens, harguments]
          simp [bind, Except.bind, hnullable, hranks, pure, Except.pure, Derivation.tree]

/-- Type arguments are parsed to their trees, with fuel for their lexemes. -/
theorem Arguments.parseArguments_lexemes : ∀ (a : Arguments) {fuel : Nat} {ts : List Token},
    a.lexemes.length < fuel → Stops Token.isLess ts →
      parseArguments fuel (tokensOf a.lexemes ++ ts) = .ok (a.trees, ts)
  | .none, fuel, ts, hfuel, hts => by
      cases fuel with
      | zero => omega
      | succ fuel =>
          cases ts with
          | nil => rfl
          | cons t ts =>
              cases t with
              | less => exact absurd (hts _ rfl) (by simp [Token.isLess])
              | _ => rfl
  | .some before first more, fuel, ts, hfuel, hts => by
      cases fuel with
      | zero => omega
      | succ fuel =>
          simp only [Arguments.lexemes, List.length_cons, List.length_append] at hfuel
          have hfuelFirst : first.lexemes.length < fuel := by omega
          have hfuelMore : more.lexemes.length < fuel := by omega
          have hfirst := first.parseTokens_lexemes hfuelFirst (more.stops_goesOn ts)
          have hmore : parseMore fuel (tokensOf more.lexemes ++ ts) = .ok (more.trees, ts) :=
            more.parseMore_lexemes hfuelMore
          exact parseSequence_append hfirst hmore

/-- The arguments after the first are parsed to their trees, with fuel for their lexemes. -/
theorem MoreArguments.parseMore_lexemes : ∀ (m : MoreArguments) {fuel : Nat} {ts : List Token},
    m.lexemes.length < fuel → parseMore fuel (tokensOf m.lexemes ++ ts) = .ok (m.trees, ts)
  | .close before, fuel, ts, hfuel => by
      cases fuel with
      | zero => omega
      | succ fuel => rfl
  | .comma before next more, fuel, ts, hfuel => by
      cases fuel with
      | zero => omega
      | succ fuel =>
          simp only [MoreArguments.lexemes, List.length_cons, List.length_append] at hfuel
          have hfuelNext : next.lexemes.length < fuel := by omega
          have hfuelMore : more.lexemes.length < fuel := by omega
          have hnext := next.parseTokens_lexemes hfuelNext (more.stops_goesOn ts)
          have hmore : parseMore fuel (tokensOf more.lexemes ++ ts) = .ok (more.trees, ts) :=
            more.parseMore_lexemes hfuelMore
          exact parseSequence_append hnext hmore
end

/-! ## What the parser reads is derived -/

/-- Whatever a parser reads from the tokens of lexemes is derived: `lexemes` says what a derivation
derives and `result` what it stands for. -/
def Reads {δ α : Type} (parser : List Token → Except ParseError (α × List Token))
    (lexemes : δ → List Lexeme) (result : δ → α) : Prop :=
  ∀ ls a ts, parser (tokensOf ls) = .ok (a, ts) →
    ∃ d rest, ls = lexemes d ++ rest ∧ tokensOf rest = ts ∧ result d = a

/-- Whatever is parsed as ranks are lexemes of ranks. -/
theorem reads_parseRanks :
    Reads (fun ts => .ok (parseRanks ts)) rankLexemes
      (List.map fun r : Blanks × Rank => rankOf r.2.inner) := by
  intro ls texts ts h
  induction ls generalizing texts with
  | nil =>
      obtain ⟨rfl, rfl⟩ : [] = texts ∧ [] = ts := by simpa [parseRanks] using h
      exact ⟨[], [], rfl, rfl, rfl⟩
  | cons l ls ih =>
      obtain ⟨before, s⟩ := l
      cases s with
      | rank r =>
          cases hmore : parseRanks (tokensOf ls) with
          | mk more after =>
              obtain ⟨rfl, rfl⟩ : rankOf r.inner :: more = texts ∧ after = ts := by
                simpa [parseRanks, hmore] using h
              obtain ⟨ranks, rest, rfl, hrest, rfl⟩ := ih more (congrArg Except.ok hmore)
              exact ⟨(before, r) :: ranks, rest, rfl, hrest, rfl⟩
      | _ =>
          cases h
          exact ⟨[], _ :: ls, rfl, rfl, rfl⟩

theorem reads_parseNullable :
    Reads (fun ts => .ok (parseNullable ts)) questionLexemes Option.isSome := by
  intro ls nullable ts h
  cases ls with
  | nil =>
      cases h
      exact ⟨none, [], rfl, rfl, rfl⟩
  | cons l ls =>
      obtain ⟨before, s⟩ := l
      cases s with
      | question =>
          cases h
          exact ⟨some before, ls, rfl, rfl, rfl⟩
      | _ =>
          cases h
          exact ⟨none, _ :: ls, rfl, rfl, rfl⟩

/-- One step of the parser of references. -/
theorem reads_parseTokens_succ {fuel : Nat}
    (harguments : Reads (parseArguments fuel) Arguments.lexemes Arguments.trees) :
    Reads (parseTokens (fuel + 1)) Derivation.lexemes Derivation.tree := by
  intro ls t ts h
  cases ls with
  | nil => simp [parseTokens] at h
  | cons l ls =>
      obtain ⟨before, s⟩ := l
      cases s with
      | name name =>
          simp only [tokensOf_cons, Lexeme.token_mk, Spelling.token, parseTokens] at h
          obtain ⟨⟨trees, after⟩, hread, h⟩ := bind_eq_ok.1 h
          obtain ⟨arguments, ls₁, rfl, rfl, rfl⟩ := harguments ls trees after hread
          cases hnullable : parseNullable (tokensOf ls₁) with
          | mk nullable afterMark =>
              obtain ⟨question, ls₂, rfl, rfl, rfl⟩ :=
                reads_parseNullable ls₁ nullable afterMark (congrArg Except.ok hnullable)
              cases hranks : parseRanks (tokensOf ls₂) with
              | mk texts afterRanks =>
                  obtain ⟨ranks, rest, rfl, rfl, rfl⟩ :=
                    reads_parseRanks ls₂ texts afterRanks (congrArg Except.ok hranks)
                  rw [hnullable] at h
                  simp only [hranks, pure_eq_ok, Prod.mk.injEq] at h
                  obtain ⟨rfl, rfl⟩ := h
                  refine ⟨.mk before name arguments question ranks, rest, ?_, rfl, rfl⟩
                  simp [Derivation.lexemes]
      | _ => simp [parseTokens] at h

/-- Whatever is parsed as types one after the other are lexemes of such types. -/
theorem reads_parseSequence {fuel : Nat}
    (hfirst : Reads (parseTokens fuel) Derivation.lexemes Derivation.tree)
    (hmore : Reads (parseMore fuel) MoreArguments.lexemes MoreArguments.trees) :
    Reads (parseSequence fuel) (fun s : Derivation × MoreArguments => s.1.lexemes ++ s.2.lexemes)
      (fun s => s.1.tree :: s.2.trees) := by
  intro ls trees ts h
  obtain ⟨⟨tree, after⟩, hread, h⟩ := bind_eq_ok.1 h
  obtain ⟨first, ls₁, rfl, rfl, rfl⟩ := hfirst ls tree after hread
  obtain ⟨⟨others, afterMore⟩, hread, h⟩ := bind_eq_ok.1 h
  obtain ⟨more, rest, rfl, rfl, rfl⟩ := hmore ls₁ others afterMore hread
  obtain ⟨rfl, rfl⟩ := Prod.mk.inj (pure_eq_ok.1 h)
  exact ⟨(first, more), rest, (List.append_assoc ..).symm, rfl, rfl⟩

/-- One step of the parser of type arguments. -/
theorem reads_parseArguments_succ {fuel : Nat}
    (hsequence : Reads (parseSequence fuel)
      (fun s : Derivation × MoreArguments => s.1.lexemes ++ s.2.lexemes)
      (fun s => s.1.tree :: s.2.trees)) :
    Reads (parseArguments (fuel + 1)) Arguments.lexemes Arguments.trees := by
  intro ls trees ts h
  cases ls with
  | nil =>
      cases h
      exact ⟨.none, [], rfl, rfl, rfl⟩
  | cons l ls =>
      obtain ⟨before, s⟩ := l
      cases s with
      | less =>
          obtain ⟨⟨first, more⟩, rest, rfl, rfl, rfl⟩ := hsequence ls trees ts h
          exact ⟨.some before first more, rest, rfl, rfl, rfl⟩
      | _ =>
          cases h
          exact ⟨.none, _ :: ls, rfl, rfl, rfl⟩

/-- One step of the parser of the type arguments after the first. -/
theorem reads_parseMore_succ {fuel : Nat}
    (hsequence : Reads (parseSequence fuel)
      (fun s : Derivation × MoreArguments => s.1.lexemes ++ s.2.lexemes)
      (fun s => s.1.tree :: s.2.trees)) :
    Reads (parseMore (fuel + 1)) MoreArguments.lexemes MoreArguments.trees := by
  intro ls trees ts h
  cases ls with
  | nil => simp [parseMore] at h
  | cons l ls =>
      obtain ⟨before, s⟩ := l
      cases s with
      | comma =>
          obtain ⟨⟨next, more⟩, rest, rfl, rfl, rfl⟩ := hsequence ls trees ts h
          exact ⟨.comma before next more, rest, rfl, rfl, rfl⟩
      | greater =>
          cases h
          exact ⟨.close before, ls, rfl, rfl, rfl⟩
      | _ => simp [parseMore] at h

/-- Whatever the three parsers read is derived. -/
theorem reads_parse (fuel : Nat) :
    Reads (parseTokens fuel) Derivation.lexemes Derivation.tree ∧
      Reads (parseArguments fuel) Arguments.lexemes Arguments.trees ∧
        Reads (parseMore fuel) MoreArguments.lexemes MoreArguments.trees := by
  induction fuel with
  | zero =>
      refine ⟨?_, ?_, ?_⟩ <;> intro ls a ts h
      · simp [parseTokens] at h
      · simp [parseArguments] at h
      · simp [parseMore] at h
  | succ fuel ih =>
      obtain ⟨htokens, harguments, hmore⟩ := ih
      have hsequence := reads_parseSequence htokens hmore
      exact ⟨reads_parseTokens_succ harguments, reads_parseArguments_succ hsequence,
        reads_parseMore_succ hsequence⟩

/-! ## The parser stops by itself -/

theorem length_parseNullable_le (tokens : List Token) :
    (parseNullable tokens).2.length ≤ tokens.length := by
  unfold parseNullable
  split
  · simp
  · exact le_rfl

theorem length_parseRanks_le (tokens : List Token) :
    (parseRanks tokens).2.length ≤ tokens.length := by
  induction tokens with
  | nil => exact le_rfl
  | cons t ts ih =>
      cases t with
      | rank text =>
          rw [parseRanks, List.length_cons]
          exact Nat.le_succ_of_le ih
      | _ => exact le_rfl

/-- A parser takes at least `taken` tokens. -/
def Takes {α : Type} (parser : List Token → Except ParseError (α × List Token)) (taken : Nat) :
    Prop :=
  ∀ tokens a rest, parser tokens = .ok (a, rest) → rest.length + taken ≤ tokens.length

theorem takes_parseSequence {fuel : Nat} (hfirst : Takes (parseTokens fuel) 1)
    (hmore : Takes (parseMore fuel) 1) : Takes (parseSequence fuel) 2 := by
  intro tokens trees rest h
  obtain ⟨⟨tree, after⟩, hread, h⟩ := bind_eq_ok.1 h
  have hfirst := hfirst tokens tree after hread
  obtain ⟨⟨others, afterMore⟩, hread, h⟩ := bind_eq_ok.1 h
  have hmore := hmore after others afterMore hread
  obtain ⟨-, rfl⟩ := Prod.mk.inj (pure_eq_ok.1 h)
  omega

/-- Parsing a type takes at least one token, and so does parsing the arguments after the first. -/
theorem takes_parse (fuel : Nat) :
    Takes (parseTokens fuel) 1 ∧ Takes (parseArguments fuel) 0 ∧ Takes (parseMore fuel) 1 := by
  induction fuel with
  | zero =>
      refine ⟨?_, ?_, ?_⟩ <;> intro tokens a rest h
      · simp [parseTokens] at h
      · simp [parseArguments] at h
      · simp [parseMore] at h
  | succ fuel ih =>
      obtain ⟨htokens, harguments, hmore⟩ := ih
      have hsequence := takes_parseSequence htokens hmore
      refine ⟨?_, ?_, ?_⟩ <;> intro tokens a rest h <;>
        rcases tokens with - | ⟨t, tokens⟩
      · simp [parseTokens] at h
      · cases t with
        | name text =>
            simp only [parseTokens] at h
            obtain ⟨⟨trees, after⟩, hread, h⟩ := bind_eq_ok.1 h
            have hrest : (parseRanks (parseNullable after).2).2 = rest :=
              congrArg Prod.snd (pure_eq_ok.1 h)
            have hafter := harguments tokens trees after hread
            have hmark := length_parseNullable_le after
            have hranks := length_parseRanks_le (parseNullable after).2
            rw [← hrest, List.length_cons]
            omega
        | _ => simp [parseTokens] at h
      · cases h
        simp
      · cases t with
        | less =>
            rw [parseArguments_less] at h
            have hrest := hsequence tokens a rest h
            rw [List.length_cons]
            omega
        | _ =>
            cases h
            simp
      · simp [parseMore] at h
      · cases t with
        | comma =>
            rw [parseMore_comma] at h
            have hrest := hsequence tokens a rest h
            rw [List.length_cons]
            omega
        | greater =>
            cases h
            simp
        | _ => simp [parseMore] at h

/-- Two parsers agree on tokens of which there are fewer than a number. -/
def AgreeBelow {α : Type} (n : Nat) (parser parser' : List Token → α) : Prop :=
  ∀ tokens : List Token, tokens.length < n → parser tokens = parser' tokens

/-- More fuel makes no difference to types one after the other if it makes none to each. -/
theorem agreeBelow_parseSequence {n fuel fuel' : Nat}
    (hfirst : AgreeBelow n (parseTokens fuel) (parseTokens fuel'))
    (hmore : AgreeBelow n (parseMore fuel) (parseMore fuel')) :
    AgreeBelow n (parseSequence fuel) (parseSequence fuel') := by
  intro tokens hlength
  unfold parseSequence
  rw [← hfirst tokens hlength]
  cases hread : parseTokens fuel tokens with
  | error e => rfl
  | ok read =>
      obtain ⟨tree, after⟩ := read
      have htaken := (takes_parse fuel).1 tokens tree after hread
      have hafter := hmore after (by omega)
      simp only [bind, Except.bind, hafter]

/-- More steps than tokens make no difference. -/
theorem agreeBelow_parse {n fuel fuel' : Nat} (hfuel : n ≤ fuel) (hfuel' : n ≤ fuel') :
    AgreeBelow n (parseTokens fuel) (parseTokens fuel') ∧
      AgreeBelow n (parseArguments fuel) (parseArguments fuel') ∧
        AgreeBelow n (parseMore fuel) (parseMore fuel') := by
  induction n generalizing fuel fuel' with
  | zero =>
      refine ⟨?_, ?_, ?_⟩ <;> intro tokens hlength
      all_goals exact absurd hlength (Nat.not_lt_zero _)
  | succ n ih =>
      cases fuel with
      | zero => omega
      | succ fuel =>
          cases fuel' with
          | zero => omega
          | succ fuel' =>
              have hn : n ≤ fuel := by omega
              have hn' : n ≤ fuel' := by omega
              obtain ⟨htokens, harguments, hmore⟩ := ih hn hn'
              have hsequence := agreeBelow_parseSequence htokens hmore
              refine ⟨?_, ?_, ?_⟩ <;> intro tokens hlength <;>
                rcases tokens with - | ⟨t, tokens⟩
              · rfl
              · have hrest : tokens.length < n := by simpa using hlength
                cases t with
                | name text => rw [parseTokens, parseTokens, harguments tokens hrest]
                | _ => rfl
              · rfl
              · have hrest : tokens.length < n := by simpa using hlength
                cases t with
                | less =>
                    rw [parseArguments_less, parseArguments_less]
                    exact hsequence tokens hrest
                | _ => rfl
              · rfl
              · have hrest : tokens.length < n := by simpa using hlength
                cases t with
                | comma =>
                    rw [parseMore_comma, parseMore_comma]
                    exact hsequence tokens hrest
                | _ => rfl

end PlatformClasses.TypeRef
