import Mathlib.Data.List.TakeWhile
import StoreBench.Proofs.Text.Digits
import StoreBench.Scenario.Network

/-!
# `StoreBench.Proofs.Scenario.Placeholders`: the places of parameters in a statement

A template names its parameters by numbers behind a `$`. Rendering it for a dialect
changes no character but a `$` in front of a digit (`getElem?_renderChars`), so it leaves
no such `$` behind (`numberedAt_renderChars`) and has nothing to do a second time.

`marked` lists what a text has in the places of parameters: every character that begins
one in either dialect, with all the digits behind it. A text is cut between its places
where what follows begins with no digit (`marked_append`), and rendering keeps every place
where it is and changes its mark only (`marked_renderChars`). So the places of a list of
any length are found by induction on its pieces (`marked_intercalate`), however many
digits their numbers have.
-/

set_option autoImplicit false

namespace StoreBench.Dialect

open Text (isDigit NoDigit noDigit_cons)

variable {c : Char} {cs ds rest : List Char}

/-! ### Single characters -/

/-- Whether a `$` stands at this position with a digit directly behind it. -/
def numberedAt (cs : List Char) (i : Nat) : Bool :=
  cs[i]? == some '$' && cs[i + 1]?.any isDigit

/-- A numbered placeholder begins with a dollar sign. -/
theorem eq_dollar_of_numberedAt (h : numberedAt (c :: rest) 0 = true) : c = '$' := by
  simp only [numberedAt, List.getElem?_cons_zero, Bool.and_eq_true, beq_iff_eq,
    Option.some.injEq] at h
  exact h.1

/-- What becomes of a character depends on the next one only. -/
theorem renderChars_cons (c : Char) (rest : List Char) :
    renderChars (c :: rest)
      = (if numberedAt (c :: rest) 0 then '?' else c) :: renderChars rest := by
  cases rest with
  | nil => simp [renderChars, numberedAt]
  | cons d rest => simp [renderChars, numberedAt]

/-- Rendering keeps the length, so that places in the text stay where they are. -/
@[simp] theorem length_renderChars (cs : List Char) : (renderChars cs).length = cs.length := by
  induction cs with
  | nil => rfl
  | cons c rest ih => rw [renderChars_cons, List.length_cons, ih, List.length_cons]

/-- Every position holds what it held, except for a `$` in front of a digit. -/
theorem getElem?_renderChars (cs : List Char) (i : Nat) :
    (renderChars cs)[i]? = if numberedAt cs i then some '?' else cs[i]? := by
  induction cs generalizing i with
  | nil => rfl
  | cons c rest ih =>
      rw [renderChars_cons]
      cases i with
      | zero =>
          rw [List.getElem?_cons_zero, List.getElem?_cons_zero]
          split <;> rfl
      | succ i =>
          -- Neither side looks at what stands before.
          rw [List.getElem?_cons_succ, List.getElem?_cons_succ, ih]
          rfl

/-- No `$` is left in front of a digit. -/
theorem numberedAt_renderChars (cs : List Char) (i : Nat) :
    numberedAt (renderChars cs) i = false := by
  rw [numberedAt, getElem?_renderChars]
  by_cases hnumbered : numberedAt cs i = true
  · rw [if_pos hnumbered]
    rfl
  · -- What is kept here is no `$`, or the next character is no digit and is kept as well.
    rw [if_neg hnumbered, getElem?_renderChars]
    split
    · simp [isDigit]
    · exact Bool.eq_false_iff.mpr hnumbered

/-- A text without a `$` in front of a digit is rendered as it is. -/
theorem renderChars_of_not_numbered (h : ∀ i, numberedAt cs i = false) :
    renderChars cs = cs := by
  refine List.ext_getElem? fun i => ?_
  rw [getElem?_renderChars, h i]
  rfl

/-- The two marks take up one byte each. -/
theorem utf8ByteSize_renderChars (cs : List Char) :
    (String.ofList (renderChars cs)).utf8ByteSize = (String.ofList cs).utf8ByteSize := by
  induction cs with
  | nil => rfl
  | cons c rest ih =>
      have hsize : (if numberedAt (c :: rest) 0 then '?' else c).utf8Size = c.utf8Size := by
        split
        · rename_i hnumbered
          obtain rfl := eq_dollar_of_numberedAt hnumbered
          rfl
        · rfl
      rw [renderChars_cons, String.ofList_cons, String.ofList_cons, String.utf8ByteSize_append,
        String.utf8ByteSize_append, String.utf8ByteSize_singleton, String.utf8ByteSize_singleton,
        hsize, ih]

/-! ### Places -/

/-- What a dialect puts in front of the number of a parameter. -/
def mark : Dialect → Char
  | sqlite => '?'
  | postgres => '$'

/-- The place of the parameter of a number, as it is written in a dialect. -/
def place (d : Dialect) (n : Nat) : List Char := d.mark :: digitsOf n

/-- Whether a character begins a parameter in one of the dialects. There are names for
parameters, too, which no template uses. -/
def beginsParameter (c : Char) : Bool := c == '?' || c == '$' || c == ':' || c == '@'

/-- Every beginning of a parameter in a text, with all the digits that follow it. -/
def marked : List Char → List (List Char)
  | [] => []
  | c :: rest =>
    if beginsParameter c then (c :: rest.takeWhile isDigit) :: marked rest else marked rest

/-- The mark of a dialect begins a parameter in it. -/
theorem beginsParameter_mark (d : Dialect) : beginsParameter d.mark = true := by
  cases d <;> rfl

/-- A digit does not, so that the digits of a number are not taken for further
parameters. -/
theorem beginsParameter_of_isDigit (h : isDigit c = true) : beginsParameter c = false := by
  simp only [beginsParameter, Bool.or_eq_false_iff, beq_eq_false_iff_ne, ne_eq]
  refine ⟨⟨⟨?_, ?_⟩, ?_⟩, ?_⟩ <;> rintro rfl <;> cases h

/-- A text may be cut in front of anything but a digit. -/
theorem marked_append (cs : List Char) (h : NoDigit rest) :
    marked (cs ++ rest) = marked cs ++ marked rest := by
  induction cs with
  | nil => rfl
  | cons c cs ih =>
      rw [List.cons_append, marked, marked, ih, Text.takeWhile_append_noDigit cs h]
      split <;> rfl

/-- Digits begin no parameter. -/
theorem marked_digits (h : ∀ c ∈ ds, isDigit c = true) : marked ds = [] := by
  induction ds with
  | nil => rfl
  | cons c ds ih =>
      obtain ⟨hc, hds⟩ := List.forall_mem_cons.mp h
      rw [marked, beginsParameter_of_isDigit hc, if_neg Bool.false_ne_true, ih hds]

/-- A place is found as it is written. -/
theorem marked_place (d : Dialect) (n : Nat) : marked (d.place n) = [d.place n] := by
  have hdigits : ∀ c ∈ digitsOf n, isDigit c = true := fun _ => Text.isDigit_of_mem_digitsOf
  rw [place, marked, if_pos (beginsParameter_mark d), marked_digits hdigits,
    List.takeWhile_eq_self_iff.mpr hdigits]

/-- The places of a list are those of its pieces, in their order. -/
theorem marked_intercalate {pieces : List (List Char)} (h : ∀ piece ∈ pieces, NoDigit piece) :
    marked ([',', ' '].intercalate pieces) = pieces.flatMap marked := by
  induction pieces with
  | nil => rfl
  | cons first pieces ih =>
      obtain ⟨hfirst, hpieces⟩ := List.forall_mem_cons.mp h
      cases pieces with
      | nil => simp
      | cons second pieces =>
          have hcomma : NoDigit ([',', ' '] ++ [',', ' '].intercalate (second :: pieces)) :=
            noDigit_cons rfl
          rw [List.intercalate_cons_cons, List.append_assoc, marked_append first hcomma,
            List.flatMap_cons, ← ih hpieces]
          rfl

/-! ### Rendered places -/

/-- Rendering leaves digits, and where they end, as they are. -/
theorem takeWhile_renderChars (cs : List Char) :
    (renderChars cs).takeWhile isDigit = cs.takeWhile isDigit := by
  induction cs with
  | nil => rfl
  | cons c rest ih =>
      rw [renderChars_cons, List.takeWhile_cons, List.takeWhile_cons, ih]
      split
      · rename_i hnumbered
        obtain rfl := eq_dollar_of_numberedAt hnumbered
        rfl
      · rfl

/-- Digits are rendered as they are. -/
theorem renderChars_digits (h : ∀ c ∈ ds, isDigit c = true) : renderChars ds = ds := by
  refine renderChars_of_not_numbered fun i => ?_
  have hdollar : ds[i]? ≠ some '$' := fun hat => by cases h '$' (List.mem_of_getElem? hat)
  simp [numberedAt, hdollar]

/-- The place of a template becomes that of the dialect. -/
theorem renderChars_place (n : Nat) : renderChars (postgres.place n) = sqlite.place n := by
  have hdigits : ∀ c ∈ digitsOf n, isDigit c = true := fun _ => Text.isDigit_of_mem_digitsOf
  obtain ⟨first, rest, hfirst⟩ := List.exists_cons_of_ne_nil (Text.digitsOf_ne_nil n)
  have hnumbered : numberedAt ('$' :: digitsOf n) 0 = true := by
    simp [numberedAt, hfirst, hdigits first (by simp [hfirst])]
  show renderChars ('$' :: digitsOf n) = '?' :: digitsOf n
  rw [renderChars_cons, if_pos hnumbered, renderChars_digits hdigits]

/-- What is rendered has its places where the template has them, each rendered by
itself. -/
theorem marked_renderChars (cs : List Char) :
    marked (renderChars cs) = (marked cs).map renderChars := by
  induction cs with
  | nil => rfl
  | cons c rest ih =>
      -- Whether a digit follows can be seen from the digits that follow.
      have hnumbered : numberedAt (c :: rest.takeWhile isDigit) 0 = numberedAt (c :: rest) 0 := by
        cases rest with
        | nil => rfl
        | cons d rest => cases hd : isDigit d <;> simp [numberedAt, hd]
      have hdigits : renderChars (rest.takeWhile isDigit) = rest.takeWhile isDigit :=
        renderChars_digits fun _ => List.mem_takeWhile_imp
      have hplace : renderChars (c :: rest.takeWhile isDigit)
          = (if numberedAt (c :: rest) 0 then '?' else c) :: rest.takeWhile isDigit := by
        rw [renderChars_cons, hnumbered, hdigits]
      rw [renderChars_cons, marked, marked, takeWhile_renderChars, ih, ← hplace]
      by_cases hdollar : numberedAt (c :: rest) 0 = true
      · -- A mark takes the place of a mark.
        obtain rfl := eq_dollar_of_numberedAt hdollar
        rw [if_pos hdollar]
        rfl
      · rw [if_neg hdollar]
        split <;> rfl

/-! ### The list of authors -/

/-- The places of a template with a list of parameters, first to last. -/
theorem marked_placeholders (n : Nat) :
    marked (Scenario.Network.placeholders n).toList
      = (List.range n).map fun i => postgres.place (i + 1) := by
  unfold Scenario.Network.placeholders
  split
  · rename_i hzero
    subst hzero
    rfl
  · have hpieces : ((List.range n).map fun i => s!"${i + 1}").map String.toList
        = (List.range n).map fun i => postgres.place (i + 1) := by
      rw [List.map_map]
      refine List.map_congr_left fun i _ => ?_
      show ("$" ++ toString (i + 1)).toList = _
      rw [String.toList_append, Text.toList_toString]
      rfl
    have hdollar : ∀ piece ∈ (List.range n).map fun i => postgres.place (i + 1),
        NoDigit piece := by
      simp only [List.forall_mem_map]
      exact fun i _ => noDigit_cons rfl
    rw [String.toList_intercalate, hpieces]
    show marked ([',', ' '].intercalate _) = _
    rw [marked_intercalate hdollar, List.flatMap_map, List.map_eq_flatMap]
    simp only [marked_place]

/-- The places of the query for the posts of some authors, before it is rendered. -/
theorem marked_postsTemplate (n : Nat) :
    marked ("SELECT id, user_id, content, created_at FROM posts WHERE user_id IN "
      ++ s!"({Scenario.Network.placeholders n})").toList
      = (List.range n).map fun i => postgres.place (i + 1) := by
  have hopened : NoDigit ('(' :: ((Scenario.Network.placeholders n).toList ++ [')'])) :=
    noDigit_cons rfl
  have hclosed : NoDigit [')'] := noDigit_cons rfl
  show marked (_ ++ ("(" ++ Scenario.Network.placeholders n ++ ")")).toList = _
  simp only [String.toList_append]
  show marked ("SELECT id, user_id, content, created_at FROM posts WHERE user_id IN ".toList
    ++ '(' :: ((Scenario.Network.placeholders n).toList ++ [')'])) = _
  rw [marked_append _ hopened]
  show [] ++ marked ((Scenario.Network.placeholders n).toList ++ [')']) = _
  rw [marked_append _ hclosed, marked_placeholders]
  exact List.append_nil _

/-- Every dialect writes its own places, one for each author in turn. -/
theorem marked_postsBy (d : Dialect) (authors : List String) :
    ∃ text, (Scenario.Network.sql d).postsBy authors = .sql text (authors.map Value.text) ∧
      marked text.toList = (List.range authors.length).map fun i => d.place (i + 1) := by
  refine ⟨_, rfl, ?_⟩
  have htemplate := marked_postsTemplate authors.length
  cases d with
  | postgres => exact htemplate
  | sqlite =>
      simp only [render]
      rw [String.toList_ofList, marked_renderChars, htemplate, List.map_map]
      exact List.map_congr_left fun i _ => renderChars_place (i + 1)

/-- Places and parameters are in step. In either dialect, the query for the posts of any
authors has one place for each of them, written in the dialect's own way with the numbers
from one on, and nothing else that begins a parameter; the authors are its parameters in
the same order. Whatever the template, rendering changes each `$` that a digit follows
into `?` and nothing else, so that neither the characters nor the bytes get more or fewer;
no `$` is left in front of a digit, and rendering again changes nothing. -/
theorem places_line_up :
    (∀ (d : Dialect) (authors : List String), ∃ text,
      (Scenario.Network.sql d).postsBy authors = .sql text (authors.map Value.text) ∧
      marked text.toList = (List.range authors.length).map fun i => d.place (i + 1)) ∧
    ∀ template : String,
      let rendered := sqlite.render template
      rendered.length = template.length ∧
      rendered.utf8ByteSize = template.utf8ByteSize ∧
      (∀ i, rendered.toList[i]?
        = if numberedAt template.toList i then some '?' else template.toList[i]?) ∧
      (∀ i, numberedAt rendered.toList i = false) ∧
      sqlite.render rendered = rendered := by
  refine ⟨marked_postsBy, fun template => ?_⟩
  intro rendered
  -- Whatever is said of the rendered text is said of its characters.
  have htext : rendered.toList = renderChars template.toList := String.toList_ofList
  have hnumbered : ∀ i, numberedAt rendered.toList i = false := by
    intro i
    rw [htext]
    exact numberedAt_renderChars _ i
  refine ⟨?_, ?_, fun i => ?_, hnumbered, ?_⟩
  · rw [← String.length_toList, htext, length_renderChars, String.length_toList]
  · show (String.ofList (renderChars template.toList)).utf8ByteSize = _
    rw [utf8ByteSize_renderChars, String.ofList_toList]
  · rw [htext, getElem?_renderChars]
  · show String.ofList (renderChars rendered.toList) = rendered
    rw [renderChars_of_not_numbered hnumbered, String.ofList_toList]

/-- The `$` of a path inside a document has no digit behind it. -/
example : sqlite.render "json_insert(post_ids, '$[#]', $12)"
    = "json_insert(post_ids, '$[#]', ?12)" := by decide

end StoreBench.Dialect
