import NoteTemplate.Proofs.Rendering.Characters

/-!
# Inserted values

The variables of a content are replaced one after the other in one text, and then the tokens of
its sections are. So a value that was put in early stands in a text that is searched again. As
long as no later search meets it, it reaches the note as it is: the note is the one in which a
character that occurs nowhere else stands for the value, with the value in the place of that
character. A search that does meet it reads it as a part of the template.

* `Text.Untouched`: no occurrence of a needle touches the copies of a text that stand for a
  character.
* `foldl_replaceAll_copies`: replacements that touch no copy may be made before the copies are.
* `Inert`, `inert_of_undisturbed`: a value that no later search meets reaches the note as it is.
* `value_read_as_template`: values that are met, one of them without any mark.
-/

namespace NoteTemplate

open Text

/-! ## Copies in the place of a character -/

namespace Text

/-- Once every `c` of `u` is replaced by `m`, each occurrence of the needle ends before or begins
behind each of these copies of `m`. -/
def Untouched (needle m : Text) (c : Char) (u : Text) : Prop :=
  ∀ before after, u = before ++ c :: after →
    ∀ l r, replaceAll [c] m u = l ++ needle ++ r →
      l.length + needle.length ≤ (replaceAll [c] m before).length ∨
        (replaceAll [c] m before).length + m.length ≤ l.length

/-- Neither text begins inside the other, whatever comes behind them. -/
def Apart (a b : Text) : Prop := Avoids a b ∧ Avoids b a

instance (a b : Text) : Decidable (Apart a b) := instDecidableAnd

theorem replaceAll_single_append (c : Char) (m a b : Text) :
    replaceAll [c] m (a ++ b) = replaceAll [c] m a ++ replaceAll [c] m b := by
  simp only [replaceAll_single, List.flatMap_append]

theorem replaceAll_single_cons_self (c : Char) (m s : Text) :
    replaceAll [c] m (c :: s) = m ++ replaceAll [c] m s := by
  simp [replaceAll_single]

theorem replaceAll_single_of_not_mem {c : Char} {s : Text} (h : c ∉ s) (m : Text) :
    replaceAll [c] m s = s :=
  replaceAll_of_avoids (avoids_of_not_mem h)

variable {needle new m : Text} {c : Char}

theorem Untouched.of_append {a u : Text} (h : Untouched needle m c (a ++ u)) :
    Untouched needle m c u := by
  rintro before after rfl l r hoccurs
  have hlong := h (a ++ before) after (List.append_assoc _ _ _).symm (replaceAll [c] m a ++ l) r
    (by rw [replaceAll_single_append, hoccurs]; simp only [List.append_assoc])
  rw [replaceAll_single_append] at hlong
  simp only [List.length_append] at hlong
  omega

/-- A needle that a text is apart from touches no copy of it, whatever stands around. -/
theorem untouched_of_apart (h : Apart needle m) (c : Char) (u : Text) :
    Untouched needle m c u := by
  obtain ⟨hneedle, hm⟩ := h
  rintro before after rfl l r hoccurs
  by_contra htouch
  rw [not_or, Nat.not_le, Nat.not_le] at htouch
  rw [replaceAll_single_append, replaceAll_single_cons_self, List.append_assoc] at hoccurs
  generalize replaceAll [c] m before = a at hoccurs htouch
  generalize replaceAll [c] m after = b at hoccurs
  rcases List.append_eq_append_iff.mp hoccurs with ⟨l', rfl, hcopy⟩ | ⟨l', rfl, hcopy⟩
  · -- The occurrence begins inside the copy.
    rcases List.append_eq_append_iff.mp hcopy with ⟨k, rfl, -⟩ | ⟨t, rfl, hbegins⟩
    · simp only [List.length_append] at htouch
      omega
    · have ht : t ≠ [] := by
        rintro rfl
        simp at htouch
      exact hneedle t (List.suffix_append l' t) ht b ⟨r, hbegins⟩
  · -- The copy begins inside the occurrence.
    rcases List.append_eq_append_iff.mp hcopy with ⟨k, rfl, -⟩ | ⟨w, rfl, hbegins⟩
    · simp only [List.length_append] at htouch
      omega
    · have hw : w ≠ [] := by
        rintro rfl
        simp at htouch
      exact hm w (List.suffix_append l' w) hw r ⟨b, hbegins⟩

theorem Untouched.not_prefix_in_copy {t ds : Text} (h : Untouched needle m c (c :: ds))
    (hne : needle ≠ []) (hsuffix : t <:+ m) (ht : t ≠ []) :
    ¬ needle <+: t ++ replaceAll [c] m ds := by
  rintro ⟨r, hr⟩
  obtain ⟨l, rfl⟩ := hsuffix
  have hoccurs : replaceAll [c] (l ++ t) (c :: ds) = l ++ needle ++ r := by
    rw [replaceAll_single_cons_self, List.append_assoc, List.append_assoc, hr]
  have hneedle := List.length_pos_iff.mpr hne
  have hlength := List.length_pos_iff.mpr ht
  rcases h [] ds rfl l r hoccurs with hshort | hlong
  · rw [replaceAll_nil, List.length_nil] at hshort
    omega
  · rw [replaceAll_nil, List.length_nil, List.length_append] at hlong
    omega

/-- An occurrence at the first character, which is not `c`, was there before the copies. -/
theorem prefix_of_untouched {d : Char} {ds : Text} (h : Untouched needle m c (d :: ds))
    (hne : d ≠ c) (hp : needle <+: replaceAll [c] m (d :: ds)) : needle <+: d :: ds := by
  by_cases hmem : c ∈ ds
  · obtain ⟨before, after, hds, hbefore⟩ := List.eq_append_cons_of_mem hmem
    have hcopy : d :: ds = (d :: before) ++ c :: after := by rw [hds]; rfl
    have hfirst : replaceAll [c] m (d :: before) = d :: before :=
      replaceAll_single_of_not_mem (by simp [hbefore, Ne.symm hne]) m
    obtain ⟨r, hr⟩ := hp
    have hshort := h _ _ hcopy [] r hr.symm
    rw [hfirst, List.length_nil, List.length_cons] at hshort
    have hbegin : d :: before <+: replaceAll [c] m (d :: ds) := by
      rw [hcopy, replaceAll_single_append, hfirst]
      exact List.prefix_append _ _
    have hneedle : needle <+: d :: before := by
      refine List.prefix_of_prefix_length_le ⟨r, hr⟩ hbegin ?_
      rw [List.length_cons]
      omega
    rw [hcopy]
    exact hneedle.trans (List.prefix_append _ _)
  · rwa [replaceAll_single_of_not_mem (by simp [hmem, Ne.symm hne])] at hp

/-- If the needle touches no copy, it may be replaced before the copies are made. -/
theorem replaceAll_copies (hne : needle ≠ []) (hneedle : c ∉ needle) (hnew : c ∉ new) {u : Text}
    (h : Untouched needle m c u) :
    replaceAll needle new (replaceAll [c] m u) = replaceAll [c] m (replaceAll needle new u) := by
  -- A needle that is replaced takes several characters, so the induction is on the length.
  induction hn : u.length using Nat.strongRecOn generalizing u with
  | _ n ih =>
    subst hn
    cases u with
    | nil => rfl
    | cons d ds =>
      have hds : Untouched needle m c ds := Untouched.of_append (a := [d]) h
      have ih' := ih ds.length (by simp) hds rfl
      by_cases hd : d = c
      · subst hd
        have hcopy : ∀ t, t <:+ m → t ≠ [] → ¬ needle <+: t ++ replaceAll [d] m ds :=
          fun t ht => h.not_prefix_in_copy hne ht
        have hnot : ¬ needle <+: d :: ds := by
          obtain ⟨e, es, rfl⟩ := List.exists_cons_of_ne_nil hne
          intro hp
          exact hneedle ((List.cons_prefix_cons.mp hp).1 ▸ List.mem_cons_self)
        rw [replaceAll_single_cons_self, replaceAll_append_of_forall hcopy, ih',
          replaceAll_cons_of_not_prefix hnot, replaceAll_single_cons_self]
      · by_cases hp : needle <+: d :: ds
        · obtain ⟨rest, hrest⟩ := hp
          rw [← hrest] at h
          have hlt : rest.length < (d :: ds).length := by
            have := List.length_pos_iff.mpr hne
            rw [← hrest, List.length_append]
            omega
          have ih' := ih rest.length hlt h.of_append rfl
          rw [← hrest, replaceAll_single_append, replaceAll_single_of_not_mem hneedle,
            replaceAll_needle_append hne, ih', replaceAll_needle_append hne,
            replaceAll_single_append, replaceAll_single_of_not_mem hnew]
        · have hkept (s : Text) : replaceAll [c] m (d :: s) = d :: replaceAll [c] m s :=
            replaceAll_cons_of_not_prefix (by simpa using Ne.symm hd) m
          have hnot : ¬ needle <+: d :: replaceAll [c] m ds := by
            rw [← hkept]
            exact fun hcopies => hp (prefix_of_untouched h hd hcopies)
          rw [hkept, replaceAll_cons_of_not_prefix hnot, ih', replaceAll_cons_of_not_prefix hp,
            hkept]

/-- Several replacements, none of which touches a copy, may be made before the copies are. -/
theorem foldl_replaceAll_copies {α : Type} {needle new : α → Text} {xs : List α}
    (hne : ∀ x ∈ xs, needle x ≠ []) (hneedle : ∀ x ∈ xs, c ∉ needle x)
    (hnew : ∀ x ∈ xs, c ∉ new x) {u : Text}
    (h : ∀ done x rest, xs = done ++ x :: rest → Untouched (needle x) m c
      (done.foldl (fun t y => replaceAll (needle y) (new y) t) u)) :
    xs.foldl (fun t x => replaceAll (needle x) (new x) t) (replaceAll [c] m u) =
      replaceAll [c] m (xs.foldl (fun t x => replaceAll (needle x) (new x) t) u) := by
  induction xs generalizing u with
  | nil => rfl
  | cons x xs ih =>
    have hfirst : replaceAll (needle x) (new x) (replaceAll [c] m u) =
        replaceAll [c] m (replaceAll (needle x) (new x) u) :=
      replaceAll_copies (hne x List.mem_cons_self) (hneedle x List.mem_cons_self)
        (hnew x List.mem_cons_self) (h [] x xs rfl)
    rw [List.foldl_cons, List.foldl_cons, hfirst]
    refine ih (fun y hy => hne y (List.mem_cons_of_mem x hy))
      (fun y hy => hneedle y (List.mem_cons_of_mem x hy))
      (fun y hy => hnew y (List.mem_cons_of_mem x hy)) fun done y rest heq => ?_
    exact h (x :: done) y rest (by rw [heq]; rfl)

theorem replaceFrom_copy {skip : Nat} {u : Text} (hu : c ∉ u) :
    replaceFrom needle m skip u = replaceAll [c] m (replaceFrom needle [c] skip u) := by
  induction u generalizing skip with
  | nil => simp [replaceFrom]
  | cons d ds ih =>
    obtain ⟨hd, hds⟩ := not_or.mp fun h => hu (List.mem_cons.mpr h)
    cases skip with
    | succ k => exact ih hds
    | zero =>
      rw [replaceFrom, replaceFrom]
      split
      · rw [ih hds, List.singleton_append, replaceAll_single_cons_self]
      · rw [ih hds, replaceAll_cons_of_not_prefix (by simpa using hd)]

/-- What is put in for a needle may be put in for a character that is put in first. -/
theorem replaceAll_copy {u : Text} (hu : c ∉ u) :
    replaceAll needle m u = replaceAll [c] m (replaceAll needle [c] u) :=
  replaceFrom_copy hu

end Text

/-! ## Contents -/

/-- No replacement made after that of `x` touches a copy of `m`, which stands for `c` in the
values: neither when a variable listed after `x` is looked for, nor when a token is. -/
structure Content.Undisturbed (k : Content) (w : Values) (x m : Text) (c : Char) : Prop where
  placeholder : ∀ done y rest, k.names = done ++ y :: rest → x ∈ done →
    Untouched (Placeholder.written y) m c
      (done.foldl (fun t name => substitute name (w.value? name) t) k.literal)
  token : ∀ done s rest, k.sections = done ++ s :: rest →
    Untouched s.token m c
      (done.foldl (fun t r => replaceAll r.token (r.expansion w repeatNamespace) t)
        (k.substituted w))

/-- The character is not blank, and it stands neither in the source nor in a value nor in what
rendering puts in or looks for of its own. -/
structure Fresh (c : Char) (source : Text) (a : Answers) : Prop where
  notBlank : blankChar c = false
  source : c ∉ source
  values : ∀ p ∈ a.values.entries, c ∉ p.2
  items : ∀ n ∈ a.namespaces.entries, ∀ item ∈ n.2, ∀ p ∈ item.entries, c ∉ p.2
  token : c ∉ RepeatSection.tokenOf []
  placeholder : c ∉ Placeholder.written []
  marker : c ∉ breakMarker

instance (c : Char) (source : Text) (a : Answers) : Decidable (Fresh c source a) :=
  decidable_of_iff (blankChar c = false ∧ c ∉ source ∧ (∀ p ∈ a.values.entries, c ∉ p.2) ∧
      (∀ n ∈ a.namespaces.entries, ∀ item ∈ n.2, ∀ p ∈ item.entries, c ∉ p.2) ∧
      c ∉ RepeatSection.tokenOf [] ∧ c ∉ Placeholder.written [] ∧ c ∉ breakMarker)
    ⟨fun ⟨h₁, h₂, h₃, h₄, h₅, h₆, h₇⟩ => ⟨h₁, h₂, h₃, h₄, h₅, h₆, h₇⟩,
      fun ⟨h₁, h₂, h₃, h₄, h₅, h₆, h₇⟩ => ⟨h₁, h₂, h₃, h₄, h₅, h₆, h₇⟩⟩

variable {source : Text} {a : Answers} {x v : Text} {c : Char}

theorem value?_setValue (a : Answers) (x v y : Text) :
    (a.setValue x v).toValues.value? y = if x = y then some v else a.toValues.value? y :=
  OrderedMap.find?_insert a.values x y v

theorem foldl_substitute_setValue {names : List Text} (hx : x ∉ names) (v s : Text) :
    names.foldl (fun t name => substitute name ((a.setValue x v).toValues.value? name) t) s =
      names.foldl (fun t name => substitute name (a.toValues.value? name) t) s := by
  induction names generalizing s with
  | nil => rfl
  | cons name names ih =>
    obtain ⟨hne, hx⟩ := not_or.mp fun h => hx (List.mem_cons.mpr h)
    rw [List.foldl_cons, List.foldl_cons, value?_setValue, if_neg hne, ih hx]

/-- Only the replacement of `x` itself depends on its value. -/
theorem foldl_substitute_append_setValue {before after : List Text} (hbefore : x ∉ before)
    (hafter : x ∉ after) (v s : Text) :
    (before ++ x :: after).foldl
        (fun t name => substitute name ((a.setValue x v).toValues.value? name) t) s =
      after.foldl (fun t name => substitute name (a.toValues.value? name) t)
        (substitute x (some v)
          (before.foldl (fun t name => substitute name (a.toValues.value? name) t) s)) := by
  rw [List.foldl_append, List.foldl_cons, foldl_substitute_setValue hbefore,
    foldl_substitute_setValue hafter, value?_setValue, if_pos rfl]

theorem Answers.exists_entry_of_item? {ns name value : Text} {index : Nat}
    (h : a.item? ns index name = some value) :
    ∃ n ∈ a.namespaces.entries, ∃ item ∈ n.2, (name, value) ∈ item.entries := by
  rw [item?, Item.valueAt?] at h
  cases hitem : (a.items ns)[index]? with
  | none =>
    rw [hitem] at h
    cases h
  | some item =>
    rw [hitem] at h
    obtain ⟨n, hn, hmem⟩ := exists_of_mem_items (List.mem_of_getElem? hitem)
    exact ⟨n, hn, item, hmem, OrderedMap.mem_of_find? h⟩

namespace Fresh

theorem not_mem_markBreaks (h : Fresh c source a) {value : Option Text}
    (hvalue : ∀ s ∈ value, c ∉ s) : c ∉ markBreaks (value.getD []) :=
  not_mem_markBreaks_getD h.marker hvalue

theorem lacks_toValues (h : Fresh c source a) : a.toValues.Lacks c := by
  refine ⟨fun name => h.not_mem_markBreaks fun s hs => ?_,
    fun ns index name => h.not_mem_markBreaks fun s hs => ?_⟩
  · exact h.values _ (OrderedMap.mem_of_find? hs)
  · obtain ⟨n, hn, item, hitem, hp⟩ := Answers.exists_entry_of_item? hs
    exact h.items n hn item hitem _ hp

theorem markBreaks_single (h : Fresh c source a) : markBreaks [c] = [c] := by
  have hr : c ≠ '\r' := by
    rintro rfl
    exact absurd h.notBlank (by decide)
  have hn : c ≠ '\n' := by
    rintro rfl
    exact absurd h.notBlank (by decide)
  exact markBreaks_of_not_mem (by simpa using Ne.symm hr) (by simpa using Ne.symm hn)

theorem not_mem_written (h : Fresh c source a) {name : Text} (hname : c ∉ name) :
    c ∉ Placeholder.written name := by
  have hbrackets := h.placeholder
  simp only [Placeholder.written, List.nil_append, List.cons_append, List.mem_cons,
    List.mem_append, not_or] at hbrackets ⊢
  exact ⟨hbrackets.1, hname, hbrackets.2⟩

theorem not_mem_token (h : Fresh c source a) {s : RepeatSection} (hlabel : c ∉ s.label) :
    c ∉ s.token :=
  RepeatSection.not_mem_tokenOf h.token hlabel

end Fresh

namespace Content

variable {k : Content}

theorem substituted_setValue_of_not_mem (hx : x ∉ k.names) (v : Text) :
    k.substituted (a.setValue x v).toValues = k.substituted a.toValues :=
  foldl_substitute_setValue hx v k.literal

/-- Behind the variable `x` the two texts go on as they differ there: one has the value where the
other has `c`. -/
theorem substituted_setValue (hc : Fresh c source a) (hk : k.Lacks c) (hnodup : k.names.Nodup)
    (hun : k.Undisturbed (a.setValue x [c]).toValues x (markBreaks v) c) :
    k.substituted (a.setValue x v).toValues =
      replaceAll [c] (markBreaks v) (k.substituted (a.setValue x [c]).toValues) := by
  have hvalues := hc.lacks_toValues
  by_cases hx : x ∈ k.names
  · obtain ⟨before, after, hnames⟩ := List.append_of_mem hx
    rw [hnames, List.nodup_append, List.nodup_cons] at hnodup
    obtain ⟨-, ⟨hafter, -⟩, hdisjoint⟩ := hnodup
    have hbefore : x ∉ before := fun hmem => hdisjoint x hmem x List.mem_cons_self rfl
    rw [substituted, substituted, hnames, foldl_substitute_append_setValue hbefore hafter,
      foldl_substitute_append_setValue hbefore hafter]
    have hdone : c ∉ before.foldl (fun t name => substitute name (a.toValues.value? name) t)
        k.literal :=
      not_mem_foldl_replaceAll before (fun name _ => hvalues.value name) hk.literal
    have hx : substitute x (some v) (before.foldl
          (fun t name => substitute name (a.toValues.value? name) t) k.literal) =
        replaceAll [c] (markBreaks v) (substitute x (some [c]) (before.foldl
          (fun t name => substitute name (a.toValues.value? name) t) k.literal)) := by
      rw [substitute, substitute, Option.getD_some, Option.getD_some, hc.markBreaks_single]
      exact replaceAll_copy hdone
    have hmem (name : Text) (hname : name ∈ after) : name ∈ k.names := by
      rw [hnames]
      exact List.mem_append_right before (List.mem_cons_of_mem x hname)
    rw [hx]
    refine foldl_replaceAll_copies ?_ ?_ ?_ fun done y rest heq => ?_
    · exact fun name _ => List.cons_ne_nil _ _
    · exact fun name hname => hc.not_mem_written (hk.name name (hmem name hname))
    · exact fun name _ => hvalues.value name
    · have hxdone : x ∉ done := fun hxdone => hafter (heq ▸ List.mem_append_left _ hxdone)
      have hun := hun.placeholder (before ++ x :: done) y rest (by simp [hnames, heq]) (by simp)
      rw [foldl_substitute_append_setValue hbefore hxdone] at hun
      exact hun
  · rw [substituted_setValue_of_not_mem hx, substituted_setValue_of_not_mem hx,
      replaceAll_single_of_not_mem (not_mem_substituted hk hvalues)]

theorem fill_setValue (hc : Fresh c source a) (hk : k.Lacks c) (hnodup : k.names.Nodup)
    (hun : k.Undisturbed (a.setValue x [c]).toValues x (markBreaks v) c) :
    k.fill (a.setValue x v).toValues repeatNamespace =
      replaceAll [c] (markBreaks v) (k.fill (a.setValue x [c]).toValues repeatNamespace) := by
  have hvalues := hc.lacks_toValues
  rw [fill, fill, substituted_setValue hc hk hnodup hun]
  refine foldl_replaceAll_copies ?_ ?_ ?_ hun.token
  · exact fun s _ => List.cons_ne_nil _ _
  · exact fun s hs => hc.not_mem_token (hk.label s hs)
  · exact fun s hs => s.not_mem_expansion (hk.body s hs) hvalues repeatNamespace

/-- What an optional block has to show does not depend on which value it is, if it is not
blank. -/
theorem observable_setValue {u : Text} (hv : isBlank v = false) (hu : isBlank u = false) :
    k.observable (a.setValue x v).toValues = k.observable (a.setValue x u).toValues := by
  have hname (name : Text) :
      ((a.setValue x v).toValues.value? name).any (fun value => !isBlank value) =
        ((a.setValue x u).toValues.value? name).any (fun value => !isBlank value) := by
    rw [value?_setValue, value?_setValue]
    by_cases hx : x = name
    · simp [hx, hv, hu]
    · rw [if_neg hx, if_neg hx]
  rw [observable, observable]
  simp only [hname]
  rfl

/-- A text that is apart from everything that is looked for is not disturbed. -/
theorem undisturbed_of_apart (hnodup : k.names.Nodup) {m : Text}
    (hnames : ∀ y ∈ k.names, y ≠ x → Apart (Placeholder.written y) m)
    (htokens : ∀ s ∈ k.sections, Apart s.token m) (w : Values) (c : Char) :
    k.Undisturbed w x m c := by
  refine ⟨fun done y rest heq hx => ?_, fun done s rest heq => ?_⟩
  · have hmem : y ∈ k.names := by simp [heq]
    refine untouched_of_apart (hnames y hmem ?_) c _
    rintro rfl
    rw [heq, List.nodup_append] at hnodup
    exact hnodup.2.2 y hx y List.mem_cons_self rfl
  · exact untouched_of_apart (htokens s (by simp [heq])) c _

end Content

/-! ## Documents -/

theorem Block.render_setValue {b : Block} (hc : Fresh c source a) (hb : b.content.Lacks c)
    (hnodup : b.content.names.Nodup) (hv : isBlank v = false)
    (hun : b.content.Undisturbed (a.setValue x [c]).toValues x (markBreaks v) c) :
    b.render (a.setValue x v).toValues =
      replaceAll [c] (markBreaks v) (b.render (a.setValue x [c]).toValues) := by
  cases b with
  | plain k => exact k.fill_setValue hc hb hnodup hun
  | optional label k =>
    have hblank : isBlank [c] = false := by
      rw [isBlank, List.all_cons, hc.notBlank, Bool.false_and]
    have hincluded : (a.setValue x v).toValues.included label =
        (a.setValue x [c]).toValues.included label := rfl
    rw [render, render, hincluded, k.observable_setValue hv hblank]
    split
    · exact k.fill_setValue hc hb hnodup hun
    · rfl

theorem Document.nodup_names {b : Block} (hb : b ∈ (Document.parse source).blocks) :
    b.content.names.Nodup := by
  obtain ⟨t, -, hcontent⟩ := exists_ofText hb
  rw [hcontent]
  exact Placeholder.nodup_names _

/-- The value `v` of `x` reaches the note as it is: the note is the one for the value `c`, with
`v`, its line breaks marked, for every `c`. -/
def Inert (source : Text) (a : Answers) (x v : Text) (c : Char) : Prop :=
  (Document.parse source).assemble (a.setValue x v).toValues =
    replaceAll [c] (markBreaks v) ((Document.parse source).assemble (a.setValue x [c]).toValues)

instance (source : Text) (a : Answers) (x v : Text) (c : Char) : Decidable (Inert source a x v c) :=
  instDecidableEqList _ _

/-- A value that is not blank, and that no replacement made after its own touches, reaches the
note as it is. -/
theorem inert_of_undisturbed (hc : Fresh c source a) (hv : isBlank v = false)
    (hun : ∀ b ∈ (Document.parse source).blocks,
      b.content.Undisturbed (a.setValue x [c]).toValues x (markBreaks v) c) :
    Inert source a x v c := by
  rw [Inert, Document.assemble, Document.assemble, replaceAll_single, List.flatMap_assoc]
  refine List.flatMap_congr fun b hb => ?_
  rw [← replaceAll_single]
  exact b.render_setValue hc (Document.lacks_content hc.token hc.source hb)
    (Document.nodup_names hb) hv (hun b hb)

/-- `Dear [A], [B]{{repeat:r}}[X]{{/repeat}}` -/
def greeting : Text :=
  "Dear [A], [B]".toList ++ Directive.written .repeated ⟨['r'], "[X]".toList⟩

/-- One item, and a value with brackets for the second variable. -/
def greetingAnswers : Answers :=
  (Answers.empty.setValue ['B'] "[q]".toList).setItem repeatNamespace 0 ['X'] ['1']

/-- Brackets, braces and a line break. -/
def markedValue : Text := "[C]{{y}}\n".toList

theorem parse_greeting : Document.parse greeting =
    ⟨[.plain ⟨[['A'], ['B']], [⟨['r'], "[X]".toList, [['X']]⟩],
      "Dear [A], [B]{{section:r}}".toList⟩]⟩ := by
  decide +kernel

theorem inert_markedValue :
    Fresh '#' greeting greetingAnswers ∧ isBlank markedValue = false ∧
      (∀ b ∈ (Document.parse greeting).blocks, b.content.Undisturbed
        (greetingAnswers.setValue ['A'] ['#']).toValues ['A'] (markBreaks markedValue) '#') ∧
      (Document.parse greeting).assemble (greetingAnswers.setValue ['A'] markedValue).toValues =
        "Dear [C]{{y}}<br>, [q]1".toList := by
  have hfresh : Fresh '#' greeting greetingAnswers := by decide
  have hblank : isBlank markedValue = false := by decide
  have hun : ∀ b ∈ (Document.parse greeting).blocks, b.content.Undisturbed
      (greetingAnswers.setValue ['A'] ['#']).toValues ['A'] (markBreaks markedValue) '#' := by
    intro b hb
    refine b.content.undisturbed_of_apart (Document.nodup_names hb) ?_ ?_ _ _
    · revert b
      rw [parse_greeting]
      decide
    · revert b
      rw [parse_greeting]
      decide
  refine ⟨hfresh, hblank, hun, (inert_of_undisturbed hfresh hblank hun).trans ?_⟩
  rw [parse_greeting]
  decide +kernel

/-! ## Values that are met -/

/-- A value of a variable of the source that is not blank and does not reach the note as it
is. -/
def ReadAsTemplate (source : Text) (a : Answers) (x v : Text) : Prop :=
  (∃ b ∈ (Document.parse source).blocks, x ∈ b.content.names) ∧ isBlank v = false ∧
    ∃ c, Fresh c source a ∧ ¬ Inert source a x v c

/-- A value can bring in the placeholder of a variable that is replaced later, or the token of a
section. Inside the brackets of another placeholder it needs no mark for that. -/
theorem value_read_as_template :
    ReadAsTemplate "[A][B]".toList (Answers.empty.setValue ['B'] ['q']) ['A'] "[B]".toList ∧
      ReadAsTemplate ("[A]".toList ++ Directive.written .repeated ⟨['r'], "[X]".toList⟩)
        Answers.empty ['A'] "{{section:r}}".toList ∧
      ReadAsTemplate "[A][[A]y][zy]".toList (Answers.empty.setValue ['z', 'y'] ['q']) ['A']
        ['z'] := by
  refine ⟨⟨?_, by decide, '#', by decide, ?_⟩, ⟨?_, by decide, '#', by decide, ?_⟩,
    ⟨?_, by decide, '#', by decide, ?_⟩⟩
  all_goals decide +kernel

end NoteTemplate
