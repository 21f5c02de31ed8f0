import NoteTemplate.Proofs.Answers.ItemCount
import NoteTemplate.Proofs.Rendering.Characters
import NoteTemplate.Proofs.Template.Reading

/-!
# Evaluating a tree

A tree is evaluated piece by piece, in one pass. Rendering goes another way: it reads the
printed tree, replaces one placeholder after the other in the whole literal, then one token
after the other. As long as no value holds a mark no replacement hits anything but its own
placeholder or token, and both ways lead to the same text.

* `Template.eval`: the text of a tree.
* `foldl_substitute`: replacing one placeholder after the other gives every part its value.
* `foldl_replace_token`: so does replacing one token after the other.
* `Template.assemble_source`: a printed tree is rendered as the tree is evaluated.
-/

namespace NoteTemplate

/-- No value, be it of a variable or inside an item, holds a mark. -/
structure Answers.Unmarked (a : Answers) : Prop where
  values : ∀ p ∈ a.values.entries, Text.Unmarked p.2
  items : ∀ n ∈ a.namespaces.entries, ∀ item ∈ n.2, ∀ p ∈ item.entries, Text.Unmarked p.2

namespace Template

open Text

/-! ## The text of a tree -/

/-- A leaf with the values of its variables. An absent value counts as empty. -/
def Leaf.eval (value? : Text → Option Text) : Leaf → Text
  | text s _ => s
  | placeholder name => markBreaks ((value? name.text).getD [])

/-- The variable whose presence decides whether there is an item. -/
def Leaf.first? (ls : List Leaf) : Option Text := ls.findSome? name?

/-- A section is evaluated once for each item, from the first one on, as long as the items
carry its first variable. -/
def Piece.eval (a : Answers) : Piece → Text
  | leaf l => l.eval a.value?
  | repeated _ body =>
    match Leaf.first? body with
    | none => []
    | some first =>
      ((a.items repeatNamespace).takeWhile fun item => item.contains first).flatMap fun item =>
        body.flatMap (Leaf.eval item.find?)

/-- A variable with a value that is not blank, or a section with an item. -/
def Piece.shows (a : Answers) : Piece → Bool
  | leaf l => l.name?.any fun name => (a.value? name).any fun value => !isBlank value
  | repeated _ body =>
    (Leaf.first? body).any fun first => a.hasItem repeatNamespace 0 first

/-- A plain part that is printed as blank text is left out, and so is an optional part that is
not wanted or has nothing to show. -/
def Part.eval (a : Answers) : Part → Text
  | plain ps => if isBlank (ps.flatMap Piece.source) then [] else ps.flatMap (Piece.eval a)
  | optional label ps =>
    if a.included label.text && ps.any (Piece.shows a) then ps.flatMap (Piece.eval a) else []

/-- The text of a tree. -/
def eval (t : Template) (a : Answers) : Text := t.parts.flatMap (Part.eval a)

def Part.pieces : Part → List Piece
  | plain ps => ps
  | optional _ ps => ps

/-- The label of a section. -/
def Piece.label? : Piece → Option Text
  | leaf _ => none
  | repeated label _ => some label.text

/-! ## Values without marks -/

theorem mark_not_mem_markBreaks {c : Char} {value : Text} (hc : isMark c = true)
    (h : Unmarked value) : c ∉ markBreaks value := by
  have hmarker : Unmarked breakMarker := by decide
  intro hmem
  rcases mem_markBreaks hmem with hvalue | hbreak
  · exact h.not_mem hc hvalue
  · exact hmarker.not_mem hc hbreak

/-- Values of which none holds a mark. -/
def UnmarkedValues (value? : Text → Option Text) : Prop :=
  ∀ name value, value? name = some value → Unmarked value

theorem UnmarkedValues.not_mem {value? : Text → Option Text} (h : UnmarkedValues value?)
    {c : Char} (hc : isMark c = true) (name : Text) :
    c ∉ markBreaks ((value? name).getD []) := by
  cases hv : value? name with
  | none =>
    have hnil : Unmarked [] := fun d hd => by cases hd
    exact mark_not_mem_markBreaks hc hnil
  | some value => exact mark_not_mem_markBreaks hc (h name value hv)

theorem unmarkedValues_find? {m : OrderedMap Text Text}
    (h : ∀ p ∈ m.entries, Unmarked p.2) : UnmarkedValues m.find? :=
  fun _ _ hfind => h _ (OrderedMap.mem_of_find? hfind)

theorem unmarked_item {a : Answers} (ha : a.Unmarked) {ns : Text} {item : Item}
    (hitem : item ∈ a.items ns) : UnmarkedValues item.find? := by
  obtain ⟨n, hn, hmem⟩ := Answers.exists_of_mem_items hitem
  exact unmarkedValues_find? (ha.items n hn item hmem)

/-! ## One placeholder after the other -/

theorem avoids_placeholder {name other : Text} (hne : name ≠ other) (hname : ']' ∉ name)
    (hother : ']' ∉ other) (hbracket : '[' ∉ other) :
    Avoids (Placeholder.written name) (Placeholder.written other) := by
  refine avoids_cons.mpr ⟨fun rest hp => ?_, avoids_of_not_mem (by simpa using hbracket)⟩
  obtain ⟨-, hp⟩ := List.cons_prefix_cons.mp hp
  refine hne (eq_of_prefix_stop (s := []) (t := rest) hname hother ?_)
  simpa using hp

section Placeholders

variable {α : Type} (name? : α → Option Text) (written : α → Text)
variable (value? : Text → Option Text)

/-- The parts with a name are placeholders, and in the others no placeholder begins. -/
structure Placed (xs : List α) : Prop where
  placeholder : ∀ x ∈ xs, ∀ name, name? x = some name →
    written x = Placeholder.written name ∧ Unmarked name
  other : ∀ x ∈ xs, name? x = none → '[' ∉ written x

/-- A part, with its value if its variable is one of those that are `done`. -/
def partly (done : List Text) (x : α) : Text :=
  match name? x with
  | none => written x
  | some name => if done.contains name then markBreaks ((value? name).getD []) else written x

/-- A part with its value. -/
def filled (x : α) : Text :=
  match name? x with
  | none => written x
  | some name => markBreaks ((value? name).getD [])

variable {name? written value?}

theorem substitute_partly {xs : List α} (hxs : Placed name? written xs)
    (hvalue : UnmarkedValues value?) {name : Text} (hname : Unmarked name) (done : List Text) :
    substitute name (value? name) (xs.flatMap (partly name? written value? done)) =
      xs.flatMap (partly name? written value? (name :: done)) := by
  have hne : Placeholder.written name ≠ [] := List.cons_ne_nil _ _
  refine replaceAll_flatMap hne fun x hx => ?_
  unfold partly
  cases hx? : name? x with
  | none => exact Or.inr ⟨avoids_of_not_mem (hxs.other x hx hx?), rfl⟩
  | some other =>
    obtain ⟨hwritten, hother⟩ := hxs.placeholder x hx other hx?
    -- A value that was put in holds no bracket, so no placeholder is found in it later.
    by_cases hdone : other ∈ done
    · right
      simp only [List.contains_iff_mem, hdone, if_true, List.mem_cons, or_true, and_true]
      exact avoids_of_not_mem (hvalue.not_mem rfl other)
    · by_cases heq : other = name
      · left
        simp [heq ▸ hdone, heq, hwritten]
      · right
        simp only [List.contains_iff_mem, hdone, heq, if_false, List.mem_cons, or_self, and_true,
          hwritten]
        exact avoids_placeholder (fun e => heq e.symm) (hname.not_mem rfl) (hother.not_mem rfl)
          (hother.not_mem rfl)

/-- Once every variable has been replaced, wherever its placeholders stand, every part has its
value. -/
theorem foldl_substitute {xs : List α} (hxs : Placed name? written xs)
    (hvalue : UnmarkedValues value?) {names : List Text} (hnames : ∀ n ∈ names, Unmarked n)
    {done : List Text} (hall : ∀ x ∈ xs, ∀ n, name? x = some n → n ∈ names ∨ n ∈ done) :
    names.foldl (fun t name => substitute name (value? name) t)
        (xs.flatMap (partly name? written value? done)) =
      xs.flatMap (filled name? written value?) := by
  induction names generalizing done with
  | nil =>
    rw [List.foldl_nil]
    refine List.flatMap_congr fun x hx => ?_
    unfold partly filled
    cases hx? : name? x with
    | none => rfl
    | some name =>
      have hdone := (hall x hx name hx?).resolve_left List.not_mem_nil
      simp [hdone]
  | cons name names ih =>
    -- The name goes over to those that are done, which keeps every name in one of the lists.
    rw [List.foldl_cons, substitute_partly hxs hvalue (hnames name List.mem_cons_self)]
    refine ih (fun n hn => hnames n (List.mem_cons_of_mem name hn)) fun x hx n hn => ?_
    rcases hall x hx n hn with h | h
    · rcases List.mem_cons.mp h with rfl | h
      · exact Or.inr List.mem_cons_self
      · exact Or.inl h
    · exact Or.inr (List.mem_cons_of_mem name h)

end Placeholders

/-! ## One token after the other -/

/-- No token begins inside the token of another label. -/
theorem avoids_token {label other : Text} (hne : label ≠ other) (hlabel : '}' ∉ label)
    (hclosing : '}' ∉ other) (hopening : '{' ∉ other) :
    Avoids (RepeatSection.tokenOf label) (RepeatSection.tokenOf other) := by
  have hend : '{' ∉ other ++ ['}', '}'] := by simp [hopening]
  have htail : Avoids (RepeatSection.tokenOf label)
      (['{', 's', 'e', 'c', 't', 'i', 'o', 'n', ':'] ++ (other ++ ['}', '}'])) := by
    refine avoids_cons.mpr ⟨fun rest hp => ?_, avoids_of_not_mem (by simpa using hend)⟩
    obtain ⟨-, hp⟩ := List.cons_prefix_cons.mp hp
    obtain ⟨hc, -⟩ := List.cons_prefix_cons.mp hp
    exact absurd hc (by decide)
  refine avoids_cons.mpr ⟨fun rest hp => hne ?_, by simpa using htail⟩
  refine eq_of_prefix_stop (s := ['}']) (t := '}' :: rest) hlabel hclosing ?_
  simpa [RepeatSection.tokenOf] using hp

/-- A piece with its value if it is a leaf, and with a token if it is a section. -/
def Piece.tokened (a : Answers) : Piece → Text
  | leaf l => l.eval a.value?
  | repeated label _ => RepeatSection.tokenOf label.text

theorem Leaf.mark_not_mem_eval {value? : Text → Option Text} (h : UnmarkedValues value?) {c : Char}
    (hc : isMark c = true) (l : Leaf) : c ∉ l.eval value? := by
  cases l with
  | text s unmarked => exact unmarked.not_mem hc
  | placeholder name => exact h.not_mem hc name.text

theorem Piece.mark_not_mem_eval {a : Answers} (ha : a.Unmarked) {c : Char}
    (hc : isMark c = true) (p : Piece) : c ∉ p.eval a := by
  cases p with
  | leaf l => exact l.mark_not_mem_eval (unmarkedValues_find? ha.values) hc
  | repeated label body =>
    rw [Piece.eval]
    split
    · exact List.not_mem_nil
    · intro hmem
      obtain ⟨item, hitem, hmem⟩ := List.mem_flatMap.mp hmem
      obtain ⟨l, -, hmem⟩ := List.mem_flatMap.mp hmem
      have hvalues := unmarked_item ha ((List.takeWhile_prefix _).subset hitem)
      exact l.mark_not_mem_eval hvalues hc hmem

/-- The token of a section that has another label is passed over. -/
theorem Piece.avoids_tokened {a : Answers} (ha : a.Unmarked) {label : Name} {ps : List Piece}
    (hlabel : label.text ∉ ps.filterMap label?) :
    Avoids (RepeatSection.tokenOf label.text) (ps.flatMap (tokened a)) := by
  refine avoids_flatMap fun p hp => ?_
  cases p with
  | leaf l =>
    exact avoids_of_not_mem (l.mark_not_mem_eval (unmarkedValues_find? ha.values) rfl)
  | repeated other body =>
    refine avoids_token (fun heq => hlabel ?_) label.closingBrace_not_mem
      other.closingBrace_not_mem other.brace_not_mem
    exact List.mem_filterMap.mpr ⟨_, hp, congrArg some heq.symm⟩

/-- A token is replaced where it stands if it begins neither before nor behind its place. -/
theorem replaceAll_own_token {done rest : Text} (hdone : '{' ∉ done) (label : Name) (new : Text)
    (hrest : Avoids (RepeatSection.tokenOf label.text) rest) :
    replaceAll (RepeatSection.tokenOf label.text) new
        (done ++ RepeatSection.tokenOf label.text ++ rest) = done ++ new ++ rest := by
  have hne : RepeatSection.tokenOf label.text ≠ [] := List.cons_ne_nil _ _
  have hbefore : Avoids (RepeatSection.tokenOf label.text) done := avoids_of_not_mem hdone
  rw [List.append_assoc, replaceAll_append hbefore, replaceAll_needle_append hne,
    replaceAll_of_avoids hrest, List.append_assoc]

/-! ## Contents -/

theorem Leaf.placed (ls : List Leaf) : Placed name? source ls := by
  refine ⟨fun l _ n hn => ?_, fun l _ hl => ?_⟩
  · cases l with
    | text s unmarked => cases hn
    | placeholder name =>
      cases hn
      exact ⟨rfl, name.unmarked⟩
  · cases l with
    | text s unmarked => exact unmarked.not_mem rfl
    | placeholder name => cases hl

theorem Piece.placed (ps : List Piece) : Placed name? literal ps := by
  refine ⟨fun p _ n hn => ?_, fun p _ hp => ?_⟩
  · cases p with
    | leaf l => exact (Leaf.placed [l]).placeholder l List.mem_cons_self n hn
    | repeated label body => cases hn
  · cases p with
    | leaf l => exact (Leaf.placed [l]).other l List.mem_cons_self hp
    | repeated label body => exact bracket_not_mem_literal label body

theorem Leaf.filled_eq (value? : Text → Option Text) (l : Leaf) :
    filled name? source value? l = l.eval value? := by
  cases l <;> rfl

theorem Piece.filled_eq (a : Answers) (p : Piece) :
    filled name? literal a.value? p = p.tokened a := by
  cases p with
  | leaf l => exact l.filled_eq a.value?
  | repeated label body => rfl

/-- Substituting the distinct names of parts gives every part its value. -/
theorem foldl_eraseDups {α : Type} {name? : α → Option Text} {written : α → Text}
    {value? : Text → Option Text} {xs : List α} (hxs : Placed name? written xs)
    (hvalue : UnmarkedValues value?) :
    (xs.filterMap name?).eraseDups.foldl (fun t name => substitute name (value? name) t)
        (xs.flatMap written) =
      xs.flatMap (filled name? written value?) := by
  have hpartly : xs.flatMap written = xs.flatMap (partly name? written value? []) := by
    refine List.flatMap_congr fun x _ => ?_
    unfold partly
    cases name? x <;> simp
  rw [hpartly]
  refine foldl_substitute hxs hvalue (fun n hn => ?_) fun x hx n hn => ?_
  · obtain ⟨x, hx, hname⟩ := List.mem_filterMap.mp (List.mem_eraseDups.mp hn)
    exact (hxs.placeholder x hx n hname).2
  · exact Or.inl (List.mem_eraseDups.mpr (List.mem_filterMap.mpr ⟨x, hx, hn⟩))

theorem substituted_content {a : Answers} (ha : a.Unmarked) (ps : List Piece) :
    (Piece.content ps).substituted a.toValues = ps.flatMap (Piece.tokened a) := by
  have h := foldl_eraseDups (Piece.placed ps) (unmarkedValues_find? ha.values)
  rw [← funext (Piece.filled_eq a)]
  exact h

theorem first?_sectionOf (label : Name) (body : List Leaf) :
    (sectionOf label body).first? = Leaf.first? body := by
  rw [RepeatSection.first?, sectionOf, Leaf.names, Leaf.first?, ← List.head?_filterMap]
  exact Placeholder.head?_eraseDups _

theorem item_sectionOf {a : Answers} (ha : a.Unmarked) (label : Name) (body : List Leaf)
    {ns : Text} {i : Nat} {item : Item} (hitem : (a.items ns)[i]? = some item) :
    (sectionOf label body).item a.toValues ns i = body.flatMap (Leaf.eval item.find?) := by
  have hvalue : a.toValues.item? ns i = item.find? := Answers.item?_eq_find? hitem
  have h := foldl_eraseDups (Leaf.placed body) (unmarked_item ha (List.mem_of_getElem? hitem))
  rw [RepeatSection.item, hvalue, ← funext (Leaf.filled_eq item.find?)]
  exact h

theorem flatMap_range {α : Type} {xs : List α} {f : Nat → Text} {g : α → Text}
    (h : ∀ i x, xs[i]? = some x → f i = g x) : (List.range xs.length).flatMap f = xs.flatMap g := by
  induction xs generalizing f with
  | nil => rfl
  | cons x xs ih =>
    have ih := ih (f := fun i => f (i + 1)) fun i y hy => h (i + 1) y hy
    rw [List.length_cons, List.range_succ_eq_map, List.flatMap_cons, List.flatMap_map,
      List.flatMap_cons, h 0 x rfl]
    exact congrArg (g x ++ ·) ih

/-- A section is expanded once for each item, as long as the items carry its first variable. -/
theorem expansion_of_first? {s : RepeatSection} {a : Answers} {ns first : Text} {f : Item → Text}
    (hfirst : s.first? = some first)
    (hitem : ∀ i item, (a.items ns)[i]? = some item → s.item a.toValues ns i = f item) :
    s.expansion a.toValues ns =
      ((a.items ns).takeWhile fun item => item.contains first).flatMap f := by
  rw [RepeatSection.expansion, RepeatSection.itemCount, hfirst]
  simp only [Answers.itemCount_toValues, Answers.nextFree]
  exact flatMap_range fun i item hi => hitem i item (Answers.getElem?_of_counted hi).1

theorem expansion_sectionOf {a : Answers} (ha : a.Unmarked) (label : Name) (body : List Leaf) :
    (sectionOf label body).expansion a.toValues repeatNamespace =
      (Piece.repeated label body).eval a := by
  have hfirst := first?_sectionOf label body
  rw [Piece.eval]
  cases hvariable : Leaf.first? body with
  | none =>
    rw [hvariable] at hfirst
    rw [RepeatSection.expansion, RepeatSection.itemCount, hfirst]
    rfl
  | some first =>
    rw [hvariable] at hfirst
    exact expansion_of_first? hfirst fun i item hitem => item_sectionOf ha label body hitem

/-- Replacing one token after the other gives every section its items. The text before the
sections that are left holds no brace, so their tokens are not found in it. -/
theorem foldl_replace_token {a : Answers} (ha : a.Unmarked) {done : Text} (hdone : '{' ∉ done)
    (ps : List Piece) (hlabels : (ps.filterMap Piece.label?).Nodup) :
    (ps.filterMap Piece.section?).foldl
        (fun t s => replaceAll s.token (s.expansion a.toValues repeatNamespace) t)
        (done ++ ps.flatMap (Piece.tokened a)) =
      done ++ ps.flatMap (Piece.eval a) := by
  induction ps generalizing done with
  | nil => rfl
  | cons p ps ih =>
    have hnext : '{' ∉ done ++ p.eval a := by
      have := p.mark_not_mem_eval ha (c := '{') rfl
      simp [hdone, this]
    rw [List.flatMap_cons, List.flatMap_cons, ← List.append_assoc, ← List.append_assoc]
    cases p with
    | leaf l => exact ih hnext hlabels
    | repeated label body =>
      obtain ⟨hlabel, hlabels⟩ := List.nodup_cons.mp hlabels
      have hreplaced := replaceAll_own_token hdone label ((Piece.repeated label body).eval a)
        (Piece.avoids_tokened ha hlabel)
      have ih := ih hnext hlabels
      rw [← hreplaced] at ih
      rw [List.filterMap_cons, Piece.section?, List.foldl_cons, expansion_sectionOf ha]
      exact ih

theorem fill_content {a : Answers} (ha : a.Unmarked) {ps : List Piece}
    (hlabels : (ps.filterMap Piece.label?).Nodup) :
    (Piece.content ps).fill a.toValues repeatNamespace = ps.flatMap (Piece.eval a) := by
  have h := foldl_replace_token ha List.not_mem_nil ps hlabels
  rw [Content.fill, substituted_content ha]
  exact h

/-! ## Documents -/

theorem observable_content (a : Answers) (ps : List Piece) :
    (Piece.content ps).observable a.toValues = ps.any (Piece.shows a) := by
  have hsection (label : Name) (body : List Leaf) :
      (sectionOf label body).first?.any (fun first => a.hasItem repeatNamespace 0 first) =
        (Piece.repeated label body).shows a := by
    rw [first?_sectionOf]
    rfl
  rw [Content.observable, Piece.content, Bool.eq_iff_iff, Bool.or_eq_true, List.any_eq_true,
    List.any_eq_true, List.any_eq_true]
  constructor
  · rintro (⟨name, hname, hshows⟩ | ⟨s, hs, hshows⟩)
    · obtain ⟨p, hp, hname⟩ := List.mem_filterMap.mp (List.mem_eraseDups.mp hname)
      refine ⟨p, hp, ?_⟩
      cases p with
      | leaf l =>
        have hname : l.name? = some name := hname
        rw [Piece.shows, hname]
        exact hshows
      | repeated label body => cases hname
    · obtain ⟨p, hp, hsection?⟩ := List.mem_filterMap.mp hs
      refine ⟨p, hp, ?_⟩
      cases p with
      | leaf l => cases hsection?
      | repeated label body =>
        cases hsection?
        rw [← hsection]
        exact hshows
  · rintro ⟨p, hp, hshows⟩
    cases p with
    | leaf l =>
      rw [Piece.shows, Option.any_eq_true] at hshows
      obtain ⟨name, hname, hshows⟩ := hshows
      left
      refine ⟨name, List.mem_eraseDups.mpr (List.mem_filterMap.mpr ⟨_, hp, hname⟩), hshows⟩
    | repeated label body =>
      right
      refine ⟨sectionOf label body, List.mem_filterMap.mpr ⟨_, hp, rfl⟩, ?_⟩
      rw [← hsection] at hshows
      exact hshows

theorem render_block? {a : Answers} (ha : a.Unmarked) {p : Part}
    (hlabels : (p.pieces.filterMap Piece.label?).Nodup) :
    p.block?.toList.flatMap (·.render a.toValues) = p.eval a := by
  have hfill := fill_content ha hlabels
  cases p with
  | plain ps =>
    rw [Part.pieces] at hfill
    rw [Part.block?, Part.eval]
    split
    · rfl
    · simp [Block.render, hfill]
  | optional label ps =>
    rw [Part.pieces] at hfill
    rw [Part.block?, Part.eval, ← observable_content, ← hfill]
    simp [Block.render, Answers.toValues]

/-- A printed tree is rendered as the tree is evaluated, if no value holds a mark and the
sections of one part have different labels. -/
theorem assemble_source (t : Template) (a : Answers) (ha : a.Unmarked)
    (hlabels : ∀ p ∈ t.parts, (p.pieces.filterMap Piece.label?).Nodup) :
    (Document.parse t.source).assemble a.toValues = t.eval a := by
  rw [Document.assemble, blocks_parse, eval]
  generalize t.parts = parts at hlabels ⊢
  induction parts with
  | nil => rfl
  | cons p parts ih =>
    have hrender := render_block? ha (hlabels p List.mem_cons_self)
    have ih := ih fun q hq => hlabels q (List.mem_cons_of_mem p hq)
    rw [List.flatMap_cons, ← hrender, ← ih, List.filterMap_cons]
    cases p.block? <;> simp

/-- `Dear [N]:{{repeat:r}} [X]-[Y];{{/repeat}}{{optional:o}} [N]{{/optional}}` -/
def letter : Template :=
  let name : Name := ⟨['N'], by decide, by decide⟩
  let item : List Leaf :=
    [.text [' '] (by decide), .placeholder ⟨['X'], by decide, by decide⟩,
      .text ['-'] (by decide), .placeholder ⟨['Y'], by decide, by decide⟩,
      .text [';'] (by decide)]
  ⟨[.plain [.leaf (.text "Dear ".toList (by decide)), .leaf (.placeholder name),
      .leaf (.text [':'] (by decide)), .repeated ⟨['r'], by decide, by decide⟩ item],
    .optional ⟨['o'], by decide, by decide⟩
      [.leaf (.text [' '] (by decide)), .leaf (.placeholder name)]], by decide⟩

/-- A value with a line break, and three items, of which the second lacks the variable `Y` and
the third the variable `X`. -/
def letterAnswers : Answers :=
  ((((Answers.empty.setValue ['N'] ['A', '\r', '\n', 'B']).setItem repeatNamespace 0 ['X'] ['1']
    ).setItem repeatNamespace 0 ['Y'] ['2']).setItem repeatNamespace 1 ['X'] ['3']
    ).setItem repeatNamespace 2 ['Y'] ['4']

theorem assemble_letter :
    letterAnswers.Unmarked ∧ (∀ p ∈ letter.parts, (p.pieces.filterMap Piece.label?).Nodup) ∧
      (Document.parse letter.source).assemble letterAnswers.toValues =
        "Dear A<br>B: 1-2; 3-; A<br>B".toList := by
  have hunmarked : letterAnswers.Unmarked := ⟨by decide, by decide⟩
  have hlabels : ∀ p ∈ letter.parts, (p.pieces.filterMap Piece.label?).Nodup := by decide
  refine ⟨hunmarked, hlabels, ?_⟩
  rw [assemble_source letter letterAnswers hunmarked hlabels]
  decide

end Template

end NoteTemplate
