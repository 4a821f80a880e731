import Mathlib.Data.List.Basic
import StoreBench.Proofs.Text.Digits
import StoreBench.Sql.Server

/-!
# `StoreBench.Proofs.Sql.Removal`: the text that removes a table

A reset writes each name between quotes into the text of a removal, as it is. The text is
scanned as four keywords, a quoted name, and whatever stands behind the quote that closes
it (`Token.scan_removal`). A name without a quote is that name, with nothing behind it.
A name with a quote in it comes apart: what is removed then, if the text can be read at
all, is shorter than the name by the quotes in it (`Instruction.ofText_removal_cases`).

Tokens are written in the characters of the text (`Token.mem_of_mem_scanFrom`), so that a
name without a semicolon makes no second instruction.
-/

set_option autoImplicit false

namespace StoreBench.Sql

/-! ### Scanning -/

namespace Token

variable {rest cs : List Char}

/-- A quoted text without the quote in it ends at its closing quote. -/
theorem readQuoted_append {quote : Char} (h : quote ∉ cs) :
    readQuoted quote (cs ++ [quote]) = some (cs, []) := by
  induction cs with
  | nil => simp [readQuoted]
  | cons c cs ih =>
      have hc : c ≠ quote := fun hc => h (hc ▸ List.mem_cons_self)
      have hcs : quote ∉ cs := fun hcs => h (List.mem_cons_of_mem _ hcs)
      obtain ⟨d, ds, hds⟩ : ∃ d ds, cs ++ [quote] = d :: ds :=
        List.exists_cons_of_ne_nil (List.append_ne_nil_of_right_ne_nil _ (List.cons_ne_nil _ _))
      rw [List.cons_append, hds, readQuoted, if_neg hc, ← hds, ih hcs]
      rfl

/-- What a quoted text was read as and what is left of it, with one more character for
each quote. -/
theorem readQuoted_spec {quote : Char} {s : List Char}
    (h : readQuoted quote cs = some (s, rest)) :
    rest <:+ cs ∧ s.length + s.count quote + rest.length + 1 ≤ cs.length := by
  fun_induction readQuoted quote cs generalizing s rest with
  | case1 => cases h
  | case2 => cases h; simp
  | case3 => cases h
  | case4 tail ih =>
      obtain ⟨⟨s', r⟩, htail, hr⟩ := Option.map_eq_some_iff.mp h
      cases hr
      obtain ⟨hsub, hlen⟩ := ih htail
      refine ⟨hsub.trans ⟨[_, _], rfl⟩, ?_⟩
      simp
      omega
  | case5 => cases h; simp
  | case6 c d tail hc ih =>
      obtain ⟨⟨s', r⟩, htail, hr⟩ := Option.map_eq_some_iff.mp h
      cases hr
      obtain ⟨hsub, hlen⟩ := ih htail
      refine ⟨hsub.trans (List.suffix_cons _ _), ?_⟩
      simp [hc] at hlen ⊢
      omega

/-- What follows a number is the end of the text. -/
theorem suffix_numberText (cs : List Char) : (numberText cs).2 <:+ cs := by
  have hdrop (l : List Char) : l.dropWhile Text.isDigit <:+ l := List.dropWhile_suffix _
  refine List.IsSuffix.trans ?_ (hdrop cs)
  unfold numberText
  dsimp only
  split
  · next e r hrest =>
      -- A point with digits behind it is in front of the exponent.
      have hpoint : e :: r <:+ cs.dropWhile Text.isDigit := by
        rw [← hrest]
        split
        · next heq =>
            rw [heq]
            exact (hdrop _).trans (List.suffix_cons _ _)
        · exact List.suffix_rfl
      refine List.IsSuffix.trans ?_ hpoint
      rw [hrest]
      refine iteInduction (motive := fun p : List Char × List Char => p.2 <:+ e :: r)
        (fun _ => ?_) fun _ => List.suffix_rfl
      refine iteInduction (motive := fun p : List Char × List Char => p.2 <:+ e :: r)
        (fun _ => List.suffix_rfl) fun _ => (hdrop _).trans ?_
      split
      · exact (List.suffix_cons _ _).trans (List.suffix_cons _ _)
      · exact (List.suffix_cons _ _).trans (List.suffix_cons _ _)
      · exact List.suffix_cons _ _
  · next hrest =>
      rw [hrest]
      exact List.nil_suffix

/-- What is left after a comment is the end of the text. -/
theorem suffix_skipComment (cs : List Char) : skipComment cs <:+ cs := by
  fun_induction skipComment cs with
  | case1 => exact List.suffix_rfl
  | case2 rest => exact ⟨['*', '/'], rfl⟩
  | case3 c rest h ih => exact ih.trans (List.suffix_cons _ _)

/-- What follows a quoted text is the end of it. -/
theorem suffix_quoted (quote : Char) (cs : List Char) (kind : List Char → TokenKind) :
    (match readQuoted quote cs with
      | some (s, rest) => (kind s, rest)
      | none => (.illegal, [])).2 <:+ cs := by
  split
  · next h => exact (readQuoted_spec h).1
  · exact List.nil_suffix

/-- What follows a token is the end of the text. -/
theorem suffix_readKind (cs : List Char) : (readKind cs).2 <:+ cs := by
  have hdrop (l : List Char) (p : Char → Bool) : l.dropWhile p <:+ l := List.dropWhile_suffix p
  have hcons {l m : List Char} {c : Char} (h : l <:+ m) : l <:+ c :: m :=
    h.trans (List.suffix_cons c m)
  unfold readKind
  split
  · exact List.suffix_rfl
  · -- A string between quotes.
    exact hcons (suffix_quoted _ _ fun s => .string (String.ofList s))
  · split
    · exact hcons ((List.drop_suffix _ _).trans (hdrop _ _))
    · exact List.nil_suffix
  · -- What a mark begins takes characters while they fit.
    exact hcons (hdrop _ _)
  · dsimp only
    split
    · -- A name between quotes.
      exact hcons (suffix_quoted _ _ fun s => .name (String.ofList s))
    split
    · refine hcons (List.IsSuffix.trans ?_ (List.drop_suffix 1 _))
      exact suffix_quoted _ _ fun s => (hexBytes? s).elim .illegal .blob
    split
    · exact hcons (hdrop _ _)
    split
    · exact hcons (hdrop _ _)
    split
    · -- A number, which may run into letters.
      split
      · exact suffix_numberText _
      · exact (hdrop _ _).trans (suffix_numberText _)
    split
    · exact hcons (List.drop_suffix _ _)
    split
    · exact List.suffix_cons _ _
    · exact List.suffix_cons _ _

/-- A token is written in the characters of the text. -/
theorem mem_of_mem_scanFrom {fuel : Nat} {last : List Char} {t : Token}
    (ht : t ∈ scanFrom fuel last cs) {c : Char} (hc : c ∈ t.text.toList) : c ∈ cs := by
  induction fuel generalizing last cs with
  | zero => cases ht
  | succ fuel ih =>
      have hblank := List.dropWhile_suffix isBlank (l := cs)
      have hbehind {x y : Char} {l : List Char} (h : c ∈ l) : c ∈ x :: y :: l :=
        List.mem_cons_of_mem x (List.mem_cons_of_mem y h)
      rw [scanFrom] at ht
      split at ht
      · cases ht
      · next rest h =>
          rw [h] at hblank
          exact hblank.subset (hbehind ((List.dropWhile_suffix _).subset (ih ht)))
      · next rest h =>
          rw [h] at hblank
          exact hblank.subset (hbehind ((suffix_skipComment _).subset (ih ht)))
      · refine hblank.subset ?_
        rcases List.mem_cons.mp ht with rfl | ht
        · rw [upTo, String.toList_ofList] at hc
          exact List.mem_of_mem_take hc
        · exact (suffix_readKind _).subset (ih ht)

/-- The text up to where scanning went on is what was read. -/
theorem upTo_append (cs later : List Char) : upTo (cs ++ later) later = String.ofList cs := by
  rw [upTo, List.length_append, Nat.add_sub_cancel, List.take_left]

/-- The token at the front, where neither a blank nor a comment is. -/
theorem scanFrom_token (fuel : Nat) (last : List Char) {c : Char} {kind : TokenKind}
    (hblank : isBlank c = false) (hdash : c ≠ '-') (hslash : c ≠ '/')
    (hkind : readKind (c :: cs) = (kind, rest)) :
    scanFrom (fuel + 1) last (c :: cs)
      = ⟨kind, upTo (c :: cs) rest, upTo last (c :: cs)⟩ :: scanFrom fuel rest rest := by
  rw [scanFrom, List.dropWhile_cons_of_neg (by rw [hblank]; exact Bool.false_ne_true)]
  split
  · next h => cases h
  · next h => cases h; exact absurd rfl hdash
  · next h => cases h; exact absurd rfl hslash
  · rw [hkind]

/-- A blank between tokens is passed over. -/
theorem scanFrom_blank (fuel : Nat) (last cs : List Char) :
    scanFrom (fuel + 1) last (' ' :: cs) = scanFrom (fuel + 1) last cs := rfl

/-- A word between blanks is one token. -/
theorem scanFrom_word (fuel : Nat) (last : List Char) (c : Char) (word rest : List Char)
    (hblank : isBlank c = false) (hdash : c ≠ '-') (hslash : c ≠ '/')
    (hkind : readKind (c :: (word ++ ' ' :: rest)) = (.word, ' ' :: rest)) :
    ∃ gap, scanFrom (fuel + 1) last (' ' :: c :: (word ++ ' ' :: rest))
      = ⟨.word, String.ofList (c :: word), gap⟩ :: scanFrom fuel (' ' :: rest) (' ' :: rest) := by
  refine ⟨upTo last (c :: (word ++ ' ' :: rest)), ?_⟩
  rw [scanFrom_blank, scanFrom_token fuel last hblank hdash hslash hkind, ← List.cons_append,
    upTo_append]

/-- The keywords of a removal, with gaps in front of them, and what they are followed
by. -/
def dropping (a b c d : String) (rest : List Token) : List Token :=
  ⟨.word, String.ofList ['D', 'R', 'O', 'P'], a⟩
    :: ⟨.word, String.ofList ['T', 'A', 'B', 'L', 'E'], b⟩
    :: ⟨.word, String.ofList ['I', 'F'], c⟩
    :: ⟨.word, String.ofList ['E', 'X', 'I', 'S', 'T', 'S'], d⟩ :: rest

/-- The words of the statement are four tokens, and scanning goes on with the name. -/
theorem scanFrom_dropping (fuel : Nat) (last cs : List Char) : ∃ a b c d,
    scanFrom (fuel + 4) last ("DROP TABLE IF EXISTS ".toList ++ cs)
      = dropping a b c d (scanFrom fuel (' ' :: cs) (' ' :: cs)) := by
  obtain ⟨a, ha⟩ := scanFrom_word (fuel + 3) last 'D' ['R', 'O', 'P']
    ("TABLE IF EXISTS ".toList ++ cs) rfl (by decide) (by decide) rfl
  obtain ⟨b, hb⟩ := scanFrom_word (fuel + 2) (" TABLE IF EXISTS ".toList ++ cs) 'T'
    ['A', 'B', 'L', 'E'] ("IF EXISTS ".toList ++ cs) rfl (by decide) (by decide) rfl
  obtain ⟨c, hc⟩ := scanFrom_word (fuel + 1) (" IF EXISTS ".toList ++ cs) 'I' ['F']
    ("EXISTS ".toList ++ cs) rfl (by decide) (by decide) rfl
  obtain ⟨d, hd⟩ := scanFrom_word fuel (" EXISTS ".toList ++ cs) 'E' ['X', 'I', 'S', 'T', 'S'] cs
    rfl (by decide) (by decide) rfl
  refine ⟨a, b, c, d, ?_⟩
  refine Eq.trans ?_ (ha.trans ?_)
  · rfl
  refine congrArg (List.cons _) (Eq.trans ?_ (hb.trans ?_))
  · rfl
  refine congrArg (List.cons _) (Eq.trans ?_ (hc.trans ?_))
  · rfl
  exact congrArg (List.cons _) hd

/-- The text that removes the table of a name. -/
def removal (name : String) : String := s!"DROP TABLE IF EXISTS \"{name}\""

/-- The statement that removes a table has its name between quotes, as it is. -/
theorem toList_removal (name : String) :
    (removal name).toList = "DROP TABLE IF EXISTS ".toList ++ '"' :: (name.toList ++ ['"']) := by
  have hquote : "DROP TABLE IF EXISTS \"".toList = "DROP TABLE IF EXISTS ".toList ++ ['"'] := by
    decide +kernel
  have hclose : "\"".toList = ['"'] := by decide +kernel
  show ("DROP TABLE IF EXISTS \"" ++ name ++ "\"").toList = _
  rw [String.toList_append, String.toList_append, hquote, hclose, List.append_assoc,
    List.append_assoc, List.singleton_append]

/-- A removal is scanned as its keywords and what the quote begins. -/
theorem scan_removal (name : String) : ∃ a b c d fuel last, scan (removal name)
    = dropping a b c d (scanFrom (fuel + 2) last ('"' :: (name.toList ++ ['"']))) := by
  have hlength : "DROP TABLE IF EXISTS ".toList.length = 21 := by decide +kernel
  have hfuel : (removal name).length + 1 = name.toList.length + 18 + 2 + 4 := by
    rw [← String.length_toList, toList_removal, List.length_append, hlength]
    simp only [List.length_cons, List.length_append, List.length_nil]
    omega
  obtain ⟨a, b, c, d, h⟩ := scanFrom_dropping (name.toList.length + 18 + 2)
    (removal name).toList ('"' :: (name.toList ++ ['"']))
  refine ⟨a, b, c, d, name.toList.length + 18, ' ' :: '"' :: (name.toList ++ ['"']), ?_⟩
  rw [scanFrom_blank] at h
  rw [scan, hfuel, ← h, ← toList_removal]

/-- A name between quotes is one token up to the closing quote, and illegal if there is
none. -/
theorem scanFrom_quoted (fuel : Nat) (last cs : List Char) :
    ∃ text gap, scanFrom (fuel + 1) last ('"' :: cs) = match readQuoted '"' cs with
      | some (s, rest) => ⟨.name (String.ofList s), text, gap⟩ :: scanFrom fuel rest rest
      | none => [⟨.illegal, text, gap⟩] := by
  have hkind : readKind ('"' :: cs) = match readQuoted '"' cs with
      | some (s, rest) => (.name (String.ofList s), rest)
      | none => (.illegal, []) := rfl
  have htoken {kind : TokenKind} {rest : List Char} (h : readKind ('"' :: cs) = (kind, rest)) :=
    scanFrom_token fuel last rfl (by decide) (by decide) h
  cases hquoted : readQuoted '"' cs with
  | some read =>
      rw [hquoted] at hkind
      exact ⟨_, _, htoken hkind⟩
  | none =>
      rw [hquoted] at hkind
      have hend : scanFrom fuel [] [] = [] := by
        cases fuel <;> rfl
      refine ⟨upTo ('"' :: cs) [], upTo last ('"' :: cs), (htoken hkind).trans ?_⟩
      rw [hend]

end Token

/-! ### Reading -/

/-- Numbering the parameters of tokens changes no text. -/
theorem exists_of_mem_numberParams {n : Nat} {tokens : List Token} {t : Token}
    (h : t ∈ numberParams n tokens) : ∃ t' ∈ tokens, t'.text = t.text := by
  induction tokens generalizing n with
  | nil => cases h
  | cons first rest ih =>
      have hrest {m : Nat} (h : t ∈ numberParams m rest) :
          ∃ t' ∈ first :: rest, t'.text = t.text := by
        obtain ⟨t', ht', htext⟩ := ih h
        exact ⟨t', List.mem_cons_of_mem _ ht', htext⟩
      have hfirst (h : first.text = t.text) : ∃ t' ∈ first :: rest, t'.text = t.text :=
        ⟨first, List.mem_cons_self, h⟩
      rw [numberParams] at h
      split at h <;> rcases List.mem_cons.mp h with heq | h
      case h_1.inl => exact hfirst (by rw [heq])
      case h_2.inl => exact hfirst (by rw [heq])
      case h_3.inl => exact hfirst (by rw [heq])
      all_goals exact hrest h

/-- Tokens without a semicolon are one part, so that the text is one statement. -/
theorem cutTokens_of_none {tokens : List Token} (h : ∀ t ∈ tokens, t.isMark ";" = false)
    (hne : tokens ≠ []) : cutTokens tokens = [tokens] := by
  induction tokens with
  | nil => exact absurd rfl hne
  | cons first rest ih =>
      obtain ⟨hfirst, hrest⟩ := List.forall_mem_cons.mp h
      rw [cutTokens, if_neg (by rw [hfirst]; exact Bool.false_ne_true)]
      cases rest with
      | nil => rfl
      | cons second rest => rw [ih hrest (List.cons_ne_nil _ _)]

namespace Reader

variable {token : Token} {rest : List Token} {keyword : String}

/-- Looking for a keyword takes it if it is there. -/
theorem run_tryWord (token : Token) (rest : List Token) (keyword : String) :
    (tryWord keyword).run (token :: rest)
      = .ok (if token.isWord keyword then (true, rest) else (false, token :: rest)) := by
  simp only [tryWord, peek, StateT.run_bind, StateT.run_get]
  cases h : token.isWord keyword <;> simp [h] <;> rfl

/-- Looking for a mark takes it if it is there. -/
theorem run_tryMark (token : Token) (rest : List Token) (m : String) :
    (tryMark m).run (token :: rest)
      = .ok (if token.isMark m then (true, rest) else (false, token :: rest)) := by
  simp only [tryMark, peek, StateT.run_bind, StateT.run_get]
  cases h : token.isMark m <;> simp [h] <;> rfl

/-- A keyword that is asked for is taken. -/
theorem run_word (h : token.isWord keyword = true) :
    (word keyword).run (token :: rest) = .ok ((), rest) := by
  rw [word, StateT.run_bind, run_tryWord, h]
  rfl

/-- Every text is refused, whatever it goes on with. -/
theorem run_refuse (α : Type) (tokens : List Token) :
    ∃ flaw, (refuse : Reader α).run tokens = .error flaw := by
  cases tokens with
  | nil => exact ⟨.incomplete, rfl⟩
  | cons token rest =>
      have hrun : (refuse : Reader α).run (token :: rest)
          = (if token.kind == .illegal then throw (Flaw.unrecognized token.text)
              else throw (Flaw.unexpected token.text) : Reader α).run (token :: rest) := rfl
      rw [hrun]
      split
      · exact ⟨.unrecognized token.text, rfl⟩
      · exact ⟨.unexpected token.text, rfl⟩

/-- The keywords of a removal lead to the name behind them. -/
theorem run_instruction_dropping (a b c d : String) (rest : List Token) :
    instruction.run (Token.dropping a b c d rest)
      = (name.run rest).map fun r => (.dropTable r.1 true, r.2) := by
  have hword (w gap keyword : String) :
      Token.isWord ⟨.word, w, gap⟩ keyword = (Text.lowered w == keyword) := rfl
  have hdrop : Text.lowered (String.ofList ['D', 'R', 'O', 'P']) = "drop" := by decide +kernel
  have htable : Text.lowered (String.ofList ['T', 'A', 'B', 'L', 'E']) = "table" := by
    decide +kernel
  have hif : Text.lowered (String.ofList ['I', 'F']) = "if" := by decide +kernel
  have hexists : Text.lowered (String.ofList ['E', 'X', 'I', 'S', 'T', 'S']) = "exists" := by
    decide +kernel
  simp only [instruction, Token.dropping]
  simp [run_tryWord, hword, hdrop, htable, hif, hexists, Text.ok_bind, run_word, tryWords, words]
  cases name.run rest <;> rfl

/-- A removal is read if nothing is behind the name. -/
theorem run_whole_name (a b c d s text gap : String) :
    whole.run (Token.dropping a b c d [⟨.name s, text, gap⟩]) = .ok (.dropTable s true, []) := by
  rw [whole, StateT.run_bind, run_instruction_dropping]
  rfl

/-- What is behind the name of a removal, other than a semicolon, is refused. -/
theorem run_whole_more (a b c d s text gap : String) (rest : List Token)
    (h : token.isMark ";" = false) : ∃ flaw,
      whole.run (Token.dropping a b c d (⟨.name s, text, gap⟩ :: token :: rest))
      = .error flaw := by
  obtain ⟨flaw, hrefuse⟩ := run_refuse Instruction (token :: rest)
  refine ⟨flaw, ?_⟩
  have hname : name.run (⟨.name s, text, gap⟩ :: token :: rest) = .ok (s, token :: rest) := rfl
  rw [whole, StateT.run_bind, run_instruction_dropping, hname]
  simp only [Except.map, Text.ok_bind, StateT.run_bind, run_tryMark, h, Bool.false_eq_true,
    if_false]
  exact hrefuse

/-- A name that does not end is refused. -/
theorem run_whole_illegal (a b c d text gap : String) :
    ∃ flaw, whole.run (Token.dropping a b c d [⟨.illegal, text, gap⟩]) = .error flaw := by
  refine ⟨.unrecognized text, ?_⟩
  rw [whole, StateT.run_bind, run_instruction_dropping]
  rfl

end Reader

namespace Instruction

variable {name : String}

/-- A removal without a semicolon in it is one instruction. -/
theorem ofText_dropping {text a b c d : String} {tokens : List Token}
    (hscan : Token.scan text = Token.dropping a b c d tokens)
    (hmark : ∀ t ∈ numberParams 0 tokens, t.isMark ";" = false) :
    ofText text
      = [(Reader.whole.run (Token.dropping a b c d (numberParams 0 tokens))).map Prod.fst] := by
  have hnumber : numberParams 0 (Token.dropping a b c d tokens)
      = Token.dropping a b c d (numberParams 0 tokens) := rfl
  have hmarks : ∀ t ∈ Token.dropping a b c d (numberParams 0 tokens), t.isMark ";" = false := by
    simp only [Token.dropping, List.forall_mem_cons]
    exact ⟨rfl, rfl, rfl, rfl, hmark⟩
  rw [ofText, hscan, hnumber, cutTokens_of_none hmarks (List.cons_ne_nil _ _)]
  rfl

/-- A name without a quote is the name of the table that is removed. -/
theorem ofText_removal (h : '"' ∉ name.toList) :
    ofText (Token.removal name) = [.ok (.dropTable name true)] := by
  obtain ⟨a, b, c, d, fuel, last, hscan⟩ := Token.scan_removal name
  obtain ⟨text, gap, hquoted⟩ := Token.scanFrom_quoted (fuel + 1) last (name.toList ++ ['"'])
  rw [hquoted, Token.readQuoted_append h] at hscan
  dsimp only at hscan
  rw [String.ofList_toList] at hscan
  rw [ofText_dropping hscan (List.forall_mem_singleton.mpr rfl)]
  exact congrArg (fun r => [r.map Prod.fst]) (Reader.run_whole_name a b c d name text gap)

/-- A name without a semicolon makes one instruction, if the text can be read at all. What
it removes is shorter than the name by the quotes that are in it. -/
theorem ofText_removal_cases (h : ';' ∉ name.toList) :
    (∃ flaw, ofText (Token.removal name) = [.error flaw])
      ∨ ∃ s : List Char, ofText (Token.removal name) = [.ok (.dropTable (String.ofList s) true)]
        ∧ s.length + s.count '"' ≤ name.toList.length := by
  obtain ⟨a, b, c, d, fuel, last, hscan⟩ := Token.scan_removal name
  obtain ⟨text, gap, hquoted⟩ := Token.scanFrom_quoted (fuel + 1) last (name.toList ++ ['"'])
  rw [hquoted] at hscan
  cases hread : Token.readQuoted '"' (name.toList ++ ['"']) with
  | none =>
      rw [hread] at hscan
      obtain ⟨flaw, hrun⟩ := Reader.run_whole_illegal a b c d text gap
      refine .inl ⟨flaw, ?_⟩
      rw [ofText_dropping hscan (List.forall_mem_singleton.mpr rfl)]
      exact congrArg (fun r => [r.map Prod.fst]) hrun
  | some read =>
      obtain ⟨s, left⟩ := read
      rw [hread] at hscan
      obtain ⟨hsub, hlength⟩ := Token.readQuoted_spec hread
      -- The tokens behind the name are written in characters of the name.
      have hmark : ∀ t ∈ numberParams 0 (Token.scanFrom (fuel + 1) left left),
          t.isMark ";" = false := by
        intro t ht
        obtain ⟨t', ht', htext⟩ := exists_of_mem_numberParams ht
        by_contra hsemi
        have hwritten : ';' ∈ t'.text.toList := by
          rw [htext]
          simp only [Token.isMark, Bool.not_eq_false, Bool.and_eq_true, beq_iff_eq] at hsemi
          rw [hsemi.2]
          decide +kernel
        rcases List.mem_append.mp (hsub.subset (Token.mem_of_mem_scanFrom ht' hwritten))
          with hname | hquote
        · exact h hname
        · exact absurd (List.mem_singleton.mp hquote) (by decide)
      have htext := ofText_dropping hscan (List.forall_mem_cons.mpr ⟨rfl, hmark⟩)
      have hnumber : numberParams 0 (⟨.name (String.ofList s), text, gap⟩
            :: Token.scanFrom (fuel + 1) left left)
          = ⟨.name (String.ofList s), text, gap⟩
            :: numberParams 0 (Token.scanFrom (fuel + 1) left left) := rfl
      dsimp only at htext
      rw [hnumber] at htext
      cases hrest : numberParams 0 (Token.scanFrom (fuel + 1) left left) with
      | nil =>
          rw [hrest, Reader.run_whole_name] at htext
          refine .inr ⟨s, htext, ?_⟩
          rw [List.length_append, List.length_singleton] at hlength
          omega
      | cons first others =>
          rw [hrest] at htext hmark
          obtain ⟨flaw, hrun⟩ := Reader.run_whole_more a b c d (String.ofList s) text gap others
            (hmark first List.mem_cons_self)
          rw [hrun] at htext
          exact .inl ⟨flaw, htext⟩

end Instruction

end StoreBench.Sql
