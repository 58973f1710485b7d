import Parley.Proofs.Stream.Forcing

/-! # What a router holds back

    A router waits for a marker that may be under way, so it does not release the end of what it was
    fed.  How much it holds back depends on the text and not on its chunks: as long as a marker is
    looked for, it is the longest end, of at most as many bytes as the longer marker has, of the text
    of the present phase (`HoldsBack`).  The phases follow each other in one direction only
    (`Phase.Leads`), and past the thinking nothing is held back and nothing is thinking.

    The main statement, `feed_holds`, puts these together for every router that can be reached by
    feeding a new one. -/

namespace Parley

/-! ## Section 1: Runs of chunks -/

namespace Router

/-- **The phase only moves forward**, by induction on the chunks. -/
theorem feed_leads (router : Router) (chunks : List (List Char)) :
    router.phase.Leads (router.feed chunks).1.phase := by
  induction chunks generalizing router with
  | nil => exact .stay _
  | cons chunk rest ih => exact (router.step_leads chunk).trans (ih (router.step chunk).1)

/-- **Past the thinking** no chunk is thinking, and neither is what is released at the end. -/
theorem feed_of_isPastThinking {router : Router} (h : router.isPastThinking = true)
    (chunks : List (List Char)) :
    ((router.feed chunks).2.append (router.feed chunks).1.finish).thinking = [] := by
  induction chunks generalizing router with
  | nil => exact finish_of_isPastThinking h
  | cons chunk rest ih =>
    obtain ⟨hpast, hnone⟩ := step_of_isPastThinking h chunk
    have hrest := ih hpast
    simp only [feed, Routed.append] at hrest ⊢
    rw [hnone, List.nil_append, hrest]

/-! ## Section 2: The window -/

/-- The number of bytes that may be held back: those of the longer marker. -/
def window (startMarker endMarker : Option String) : Nat :=
  max (Text.byteLength (startMarker.getD "").toList) (Text.byteLength (endMarker.getD "").toList)

theorem markerLength_marker? (marker : Option String) :
    markerLength (marker? marker) = Text.byteLength (marker.getD "").toList := by
  cases marker with
  | none => rfl
  | some text =>
    by_cases hempty : text = ""
    · rw [hempty]
      rfl
    · simp [marker?, markerLength, Option.filter, hempty]

/-- A router that looks for a marker holds back as many bytes as the longer marker has. -/
theorem hold_new {mode : ThinkingMode} {startMarker endMarker : Option String}
    (h : (Router.new mode startMarker endMarker).phase ≠ .disabled) :
    (Router.new mode startMarker endMarker).hold = window startMarker endMarker := by
  unfold window
  rw [← markerLength_marker?, ← markerLength_marker?]
  exact if_neg h

/-! ## Section 3: What is held back -/

/-- **What is held back** by a router that was fed `text`.  As long as it looks for the start marker,
    this is the longest end of the text that fits into the window, and as long as it looks for the
    end marker, the longest end of what came behind the start marker; the marker is not in it.  After
    that, or with no markers to look for, nothing is held back. -/
structure HoldsBack (startMarker endMarker : Option String) (text : List Char) (router : Router) :
    Prop where
  searching : router.phase = .searchingForStart →
    Text.LongestEnd (window startMarker endMarker) text router.pending
      ∧ ∀ marker, IsMarker startMarker marker → ¬ marker <:+: router.pending
  thinking : router.phase = .inThinking → ∃ marker before thoughts,
    IsMarker startMarker marker ∧ Text.FirstCut marker text before thoughts
      ∧ Text.LongestEnd (window startMarker endMarker) thoughts router.pending
      ∧ ∀ last, IsMarker endMarker last → ¬ last <:+: router.pending
  past : router.isPastThinking = true → router.pending = []

section HoldsBack

variable {mode : ThinkingMode} {startMarker endMarker : Option String}

/-- What is fed to a new router is the same to it as one chunk. -/
theorem feed_new (chunks : List (List Char)) :
    (Router.new mode startMarker endMarker).feed chunks
      = (Router.new mode startMarker endMarker).step chunks.flatten := by
  cases chunks with
  | nil => exact (new_step_nil mode startMarker endMarker).symm
  | cons chunk rest => exact feed_cons (new_watchful mode startMarker endMarker) chunk rest

/-- A new router that goes on looking for the start marker has not met it. -/
theorem new_step_searching {text : List Char}
    (h : ((Router.new mode startMarker endMarker).step text).1.phase = .searchingForStart) :
    (∀ marker, IsMarker startMarker marker → ¬ marker <:+: text)
      ∧ ((Router.new mode startMarker endMarker).step text).1.pending
        = (Text.splitLast (window startMarker endMarker) text).2 := by
  have hphase := (step_phase (Router.new mode startMarker endMarker) text).1 h
  have hhold : (Router.new mode startMarker endMarker).hold = window startMarker endMarker :=
    hold_new (by rw [hphase]; decide)
  have hstep : (Router.new mode startMarker endMarker).step text
      = (Router.new mode startMarker endMarker).stepSearching text := by
    simp only [step, hphase]
    rfl
  rw [hstep] at h ⊢
  cases hcut : (marker? startMarker).bind (Text.splitAtFirst · text) with
  | none =>
    rw [stepSearching_of_missing rfl hcut, hhold]
    exact ⟨bind_splitAtFirst_eq_none_iff.mp hcut, rfl⟩
  | some cut =>
    rw [stepSearching_of_found rfl hcut] at h
    rcases stepThinking_phase (Router.new mode startMarker endMarker) cut.2 cut.1 with h' | h' <;>
      rw [h'] at h <;> contradiction

/-- **A router that was fed a text** holds back the end of it, or of the part behind the start
    marker. -/
theorem holdsBack_new_step (text : List Char) : HoldsBack startMarker endMarker text
    ((Router.new mode startMarker endMarker).step text).1 where
  searching h := by
    obtain ⟨habsent, hpending⟩ := new_step_searching h
    have hlongest := Text.splitLast_longestEnd (window startMarker endMarker) text
    rw [← hpending] at hlongest
    refine ⟨hlongest, fun marker hmarker hin => habsent marker hmarker ?_⟩
    exact hin.trans hlongest.isEnd.isInfix
  thinking h := by
    obtain ⟨hmode, marker, before, thoughts, hmarker, hcut, hopen, -⟩ := new_step_inThinking h
    have hphase : (Router.new mode startMarker endMarker).phase = .searchingForStart := by
      simp [Router.new, firstPhase, hmode, marker?_eq_some_iff.mpr hmarker]
    have hhold : (Router.new mode startMarker endMarker).hold = window startMarker endMarker :=
      hold_new (by rw [hphase]; decide)
    have hnone : (Router.new mode startMarker endMarker).endMarker.bind
        (Text.splitAtFirst · thoughts) = none := bind_splitAtFirst_eq_none_iff.mpr hopen
    have hpending : ((Router.new mode startMarker endMarker).step text).1.pending
        = (Text.splitLast (window startMarker endMarker) thoughts).2 := by
      rw [new_step_of_found hmode hmarker hcut, ← hhold]
      simp [stepThinking, hnone]
    have hlongest := Text.splitLast_longestEnd (window startMarker endMarker) thoughts
    rw [← hpending] at hlongest
    refine ⟨marker, before, thoughts, hmarker, hcut, hlongest, fun last hlast hin => ?_⟩
    exact hopen last hlast (hin.trans hlongest.isEnd.isInfix)
  past h := pending_of_isPastThinking h

/-- **What is held back, and where the text goes.**  After whatever chunks a new router was fed:
    it holds back the longest end of the text of its phase that fits into the window, without the
    marker that it looks for; with more chunks the phase only moves forward, and past the thinking
    nothing is thinking any more; and two chunks lead to the same router as one made of both, and
    release the same text. -/
theorem feed_holds (mode : ThinkingMode) (startMarker endMarker : Option String)
    (chunks : List (List Char)) :
    let router := ((Router.new mode startMarker endMarker).feed chunks).1
    HoldsBack startMarker endMarker chunks.flatten router
      ∧ (∀ more, router.phase.Leads (router.feed more).1.phase)
      ∧ (router.isPastThinking = true →
        ∀ more, ((router.feed more).2.append (router.feed more).1.finish).thinking = [])
      ∧ ∀ first second, router.step (first ++ second) = followedBy (router.step first) second := by
  intro router
  have hstep : router = ((Router.new mode startMarker endMarker).step chunks.flatten).1 :=
    congrArg Prod.fst (feed_new chunks)
  refine ⟨?_, router.feed_leads, feed_of_isPastThinking, ?_⟩
  · rw [hstep]
    exact holdsBack_new_step chunks.flatten
  · rw [hstep]
    exact step_append (step_watchful (new_watchful mode startMarker endMarker) chunks.flatten)

end HoldsBack

end Router

end Parley
