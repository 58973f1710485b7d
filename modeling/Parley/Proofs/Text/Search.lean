import Mathlib.Data.List.Infix
import Parley.Text.Search

/-! # Cuts of a text

    What the two cuts of `Parley.Text.Search` say about a text, without their recursion.  The cut at
    a marker is the one before its first occurrence; the cut at the end keeps the longest end of
    at most so many bytes.  Both can be made on a text that comes in two parts: what the cut at the
    end keeps of the first part is enough to find a marker that is spread over the two. -/

namespace Parley.Text

/-! ## Section 1: Sizes -/

@[simp] theorem byteLength_nil : byteLength [] = 0 := rfl

@[simp] theorem byteLength_cons (c : Char) (text : List Char) :
    byteLength (c :: text) = c.utf8Size + byteLength text := rfl

@[simp] theorem byteLength_append (text more : List Char) :
    byteLength (text ++ more) = byteLength text + byteLength more := by
  induction text with
  | nil => simp
  | cons c rest ih => simp [ih, Nat.add_assoc]

/-- Of two beginnings of one text the one with fewer bytes is a beginning of the other. -/
theorem prefix_of_byteLength_lt {start other text : List Char} (h : start <+: text)
    (hother : other <+: text) (hlt : byteLength start < byteLength other) : start <+: other := by
  obtain hle | hle := Nat.le_total start.length other.length
  · exact List.prefix_of_prefix_length_le h hother hle
  · obtain ⟨more, rfl⟩ := List.prefix_of_prefix_length_le hother h hle
    rw [byteLength_append] at hlt
    omega

/-! ## Section 2: The cut at a marker -/

/-- `text` is cut before the first occurrence of `marker`: `before` is the shortest beginning that
    the marker follows. -/
structure FirstCut (marker text before after : List Char) : Prop where
  text_eq : text = before ++ marker ++ after
  first : ∀ before' after', text = before' ++ marker ++ after' → before.length ≤ before'.length

/-- There is one cut before the first occurrence. -/
theorem FirstCut.unique {marker text before after before' after' : List Char}
    (h : FirstCut marker text before after) (h' : FirstCut marker text before' after') :
    before = before' ∧ after = after' := by
  have hlen : before.length = before'.length :=
    Nat.le_antisymm (h.first _ _ h'.text_eq) (h'.first _ _ h.text_eq)
  have heq : before ++ (marker ++ after) = before' ++ (marker ++ after') := by
    rw [← List.append_assoc, ← List.append_assoc, ← h.text_eq, ← h'.text_eq]
  obtain ⟨hbefore, hrest⟩ := List.append_inj heq hlen
  exact ⟨hbefore, List.append_cancel_left hrest⟩

theorem splitAtFirst_here {marker : List Char} {c : Char} {rest : List Char}
    (h : marker <+: c :: rest) :
    splitAtFirst marker (c :: rest) = some ([], (c :: rest).drop marker.length) := by
  simp [splitAtFirst, List.isPrefixOf_iff_prefix.mpr h]

theorem splitAtFirst_later {marker : List Char} {c : Char} {rest : List Char}
    (h : ¬ marker <+: c :: rest) :
    splitAtFirst marker (c :: rest)
      = (splitAtFirst marker rest).map fun (before, after) => (c :: before, after) := by
  have hfalse : marker.isPrefixOf (c :: rest) = false := by
    rw [Bool.eq_false_iff, Ne, List.isPrefixOf_iff_prefix]
    exact h
  simp [splitAtFirst, hfalse]

/-- A text without the marker has no cut. -/
theorem splitAtFirst_eq_none_iff {marker text : List Char} :
    splitAtFirst marker text = none ↔ ¬ marker <:+: text := by
  induction text with
  | nil => cases marker <;> simp [splitAtFirst]
  | cons c rest ih =>
    by_cases h : marker <+: c :: rest
    · simp [splitAtFirst_here h, h.isInfix]
    · rw [splitAtFirst_later h, Option.map_eq_none_iff, ih, List.infix_cons_iff]
      simp [h]

/-- The cut that is found is the one before the first occurrence. -/
theorem splitAtFirst_spec {marker text before after : List Char}
    (h : splitAtFirst marker text = some (before, after)) :
    FirstCut marker text before after := by
  induction text generalizing before after with
  | nil =>
    cases marker with
    | nil =>
      simp [splitAtFirst] at h
      obtain ⟨rfl, rfl⟩ := h
      exact ⟨rfl, by simp⟩
    | cons d marker => simp [splitAtFirst] at h
  | cons c rest ih =>
    by_cases hp : marker <+: c :: rest
    · rw [splitAtFirst_here hp] at h
      obtain ⟨rfl, rfl⟩ := Prod.mk.inj (Option.some.inj h)
      refine ⟨?_, by simp⟩
      obtain ⟨more, hmore⟩ := hp
      rw [← hmore]
      simp
    · rw [splitAtFirst_later hp] at h
      obtain ⟨⟨b, a⟩, hrest, heq⟩ := Option.map_eq_some_iff.mp h
      obtain ⟨rfl, rfl⟩ := Prod.mk.inj heq
      have hcut := ih hrest
      refine ⟨by simpa using hcut.text_eq, fun before' after' heq' => ?_⟩
      -- An occurrence at the very start is excluded, any other one is an occurrence in the rest.
      cases before' with
      | nil => exact absurd ⟨after', by simpa using heq'.symm⟩ hp
      | cons d before' =>
        have hrest' : rest = before' ++ marker ++ after' := by simpa using (List.cons.inj heq').2
        simpa using hcut.first before' after' hrest'

theorem splitAtFirst_eq_some_iff {marker text before after : List Char} :
    splitAtFirst marker text = some (before, after) ↔ FirstCut marker text before after := by
  refine ⟨splitAtFirst_spec, fun h => ?_⟩
  cases hcut : splitAtFirst marker text with
  | none =>
    exact absurd ⟨before, after, h.text_eq.symm⟩ (splitAtFirst_eq_none_iff.mp hcut)
  | some cut =>
    obtain ⟨rfl, rfl⟩ := (splitAtFirst_spec hcut).unique h
    rfl

/-- Text behind the cut stays behind it. -/
theorem splitAtFirst_append {marker text before after : List Char}
    (h : splitAtFirst marker text = some (before, after)) (more : List Char) (hm : marker ≠ []) :
    splitAtFirst marker (text ++ more) = some (before, after ++ more) := by
  induction text generalizing before after with
  | nil => simp [splitAtFirst, hm] at h
  | cons c rest ih =>
    by_cases hp : marker <+: c :: rest
    · have hp' : marker <+: c :: (rest ++ more) := hp.trans (List.prefix_append (c :: rest) more)
      rw [splitAtFirst_here hp] at h
      obtain ⟨rfl, rfl⟩ := Prod.mk.inj (Option.some.inj h)
      rw [List.cons_append, splitAtFirst_here hp', ← List.cons_append,
        List.drop_append_of_le_length hp.length_le]
    · rw [splitAtFirst_later hp] at h
      obtain ⟨⟨b, a⟩, hrest, heq⟩ := Option.map_eq_some_iff.mp h
      obtain ⟨rfl, rfl⟩ := Prod.mk.inj heq
      have hp' : ¬ marker <+: c :: (rest ++ more) := by
        -- The marker stands whole in the first part, so it fits before the second.
        intro hp'
        have hlen : marker.length ≤ (c :: rest).length := by
          have := congrArg List.length (splitAtFirst_spec hrest).text_eq
          simp at this ⊢
          omega
        exact hp (List.prefix_of_prefix_length_le hp' (List.prefix_append (c :: rest) more) hlen)
      rw [List.cons_append, splitAtFirst_later hp', ih hrest]
      rfl

/-! ## Section 3: The cut at the end -/

/-- The cut goes forward until what is left has at most `limit` bytes. -/
theorem splitLast_cons (limit : Nat) (c : Char) (rest : List Char) :
    splitLast limit (c :: rest)
      = if byteLength (c :: rest) ≤ limit then ([], c :: rest)
        else (c :: (splitLast limit rest).1, (splitLast limit rest).2) := by
  have hsize : byteLength (c :: rest) - c.utf8Size = byteLength rest := by simp
  rw [splitLast, splitLastSized, hsize]
  rfl

@[simp] theorem splitLast_nil (limit : Nat) : splitLast limit [] = ([], []) := rfl

/-- A text that is short enough is kept whole. -/
theorem splitLast_of_le {limit : Nat} {text : List Char} (h : byteLength text ≤ limit) :
    splitLast limit text = ([], text) := by
  cases text with
  | nil => rfl
  | cons c rest => rw [splitLast_cons, if_pos h]

/-- The cut loses nothing. -/
@[simp] theorem splitLast_fst_append_snd (limit : Nat) (text : List Char) :
    (splitLast limit text).1 ++ (splitLast limit text).2 = text := by
  induction text with
  | nil => rfl
  | cons c rest ih =>
    rw [splitLast_cons]
    split
    · rfl
    · simp [ih]

/-- `kept` is the longest end of `text` of at most `limit` bytes. -/
structure LongestEnd (limit : Nat) (text kept : List Char) : Prop where
  isEnd : kept <:+ text
  fits : byteLength kept ≤ limit
  longest : ∀ other, other <:+ text → byteLength other ≤ limit → other <:+ kept

/-- What the cut keeps is the longest end that may be kept. -/
theorem splitLast_longestEnd (limit : Nat) (text : List Char) :
    LongestEnd limit text (splitLast limit text).2 := by
  induction text with
  | nil => exact ⟨List.suffix_refl [], Nat.zero_le limit, fun _ hother _ => hother⟩
  | cons c rest ih =>
    rw [splitLast_cons]
    split
    · rename_i hle
      exact ⟨List.suffix_refl _, hle, fun _ hother _ => hother⟩
    · rename_i hlong
      refine ⟨ih.isEnd.trans (List.suffix_cons c rest), ih.fits, fun other hother hle => ?_⟩
      -- an end that fits is not the whole text
      obtain rfl | hrest := List.suffix_cons_iff.mp hother
      · exact absurd hle hlong
      · exact ih.longest other hrest hle

/-- A text that comes in two parts is cut in two steps: what is kept of the first part is put before
    the second. -/
theorem splitLast_append (limit : Nat) (text more : List Char) :
    splitLast limit (text ++ more)
      = ((splitLast limit text).1 ++ (splitLast limit ((splitLast limit text).2 ++ more)).1,
          (splitLast limit ((splitLast limit text).2 ++ more)).2) := by
  induction text with
  | nil => simp
  | cons c rest ih =>
    by_cases h : byteLength (c :: rest) ≤ limit
    · simp [splitLast_of_le h]
    · have h' : ¬ byteLength (c :: (rest ++ more)) ≤ limit := by
        simp at h ⊢
        omega
      rw [List.cons_append, splitLast_cons limit c (rest ++ more), if_neg h',
        splitLast_cons limit c rest, if_neg h, ih]
      simp

/-- What is kept of a text without the marker is enough to find a marker that ends in what follows,
    if the marker has at most as many bytes as may be kept. -/
theorem splitAtFirst_splitLast {marker text : List Char} {limit : Nat}
    (hm : byteLength marker ≤ limit) (h : splitAtFirst marker text = none) (more : List Char) :
    splitAtFirst marker (text ++ more)
      = (splitAtFirst marker ((splitLast limit text).2 ++ more)).map fun (before, after) =>
          ((splitLast limit text).1 ++ before, after) := by
  induction text with
  | nil => simp
  | cons c rest ih =>
    by_cases hle : byteLength (c :: rest) ≤ limit
    · simp [splitLast_of_le hle]
    · have hrest : splitAtFirst marker rest = none := by
        rw [splitAtFirst_eq_none_iff] at h ⊢
        exact fun hin => h (hin.trans (List.suffix_cons c rest).isInfix)
      have hp : ¬ marker <+: c :: (rest ++ more) := by
        intro hp
        have hlt : byteLength marker < byteLength (c :: rest) := by omega
        have hstart := prefix_of_byteLength_lt hp (List.prefix_append (c :: rest) more) hlt
        exact splitAtFirst_eq_none_iff.mp h hstart.isInfix
      rw [List.cons_append, splitAtFirst_later hp, ih hrest, splitLast_cons, if_neg hle,
        Option.map_map]
      rfl

end Parley.Text
