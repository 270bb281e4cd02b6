import Barline.Proofs.CommandLine.Precedence

/-!
# Arguments — a single argument names a snapshot

Only a word can name the snapshot, since options have effects of their own and leave it alone. So a command line of one
argument, if it is acted on at all, asks for the snapshot of that very name, with everything else as it is by default:
`Arguments.eq_of_parse_singleton`.
-/

namespace Barline.CommandLine

/-! ## Options leave the snapshot alone -/

namespace Progress

variable {p q : Progress}

theorem snapshot_of_set {f : Flag} {value : Text} (h : p.set f value = .ok q) : q.snapshot = p.snapshot := by
  unfold set setNothing at h
  split at h
  · cases f <;> cases h <;> rfl
  · cases f with
    | loopCount =>
      cases hcount : Numeral.wholeText? value with
      | none => simp [hcount] at h
      | some n =>
        simp only [hcount, Except.ok.injEq] at h
        rw [← h]
    | _ => cases h <;> rfl

theorem snapshot_of_turnOn {f : Flag} (h : p.turnOn f = .ok q) : q.snapshot = p.snapshot := by
  cases f <;> cases h <;> rfl

theorem snapshot_of_turnOnAll {flags : List Flag} (h : p.turnOnAll flags = .ok q) : q.snapshot = p.snapshot := by
  induction flags generalizing p with
  | nil =>
    obtain rfl := Except.ok.inj h
    rfl
  | cons f rest ih =>
    obtain ⟨next, hnext, h⟩ := exists_of_bind_eq_ok h
    exact (ih h).trans (snapshot_of_turnOn hnext)

theorem snapshot_of_applyAttached {f : Flag} {short : Bool} {attached : Text}
    (h : applyAttached p f short attached = .ok q) : q.snapshot = p.snapshot := by
  unfold applyAttached at h
  split at h
  · exact snapshot_of_set h
  · split at h
    · cases hflags : cluster? f attached with
      | none => simp [hflags] at h
      | some flags =>
        simp only [hflags] at h
        exact snapshot_of_turnOnAll h
    · cases h

end Progress

/-! ## Words stand for themselves -/

/-- What an argument may be short for is an option. -/
theorem flag_of_mem_interpretations {t : Text} {item : Item} (h : item ∈ interpretations t) :
    ∃ f short attached, item = .flag f short attached := by
  unfold interpretations at h
  obtain ⟨⟨spelling, f⟩, _, h⟩ := List.mem_filterMap.1 h
  by_cases hlong : t.take 2 = twoDashes
  · by_cases hname : (Numeral.cutAt (· = equalsSign) t).1.isPrefixOf spelling
    · simp only [if_pos hlong, if_pos hname] at h
      exact ⟨_, _, _, (Option.some.inj h).symm⟩
    · simp only [if_pos hlong, if_neg hname] at h
      cases h
  · by_cases hshort : spelling = t.take 2
    · simp only [if_neg hlong, if_pos hshort] at h
      exact ⟨_, _, _, (Option.some.inj h).symm⟩
    · simp only [if_neg hlong, if_neg hshort] at h
      cases h

theorem eq_of_classify_eq_word {t w : Text} (h : classify t = some (.word w)) : w = t := by
  unfold classify at h
  split at h
  · -- behind a dash, spelled out options come first, then options with a value, then what they may be short for
    unfold classifyDashed at h
    split at h
    · cases h
    · dsimp only at h
      split at h
      · cases h
      · split at h
        next item hitems =>
          rcases flag_of_mem_interpretations (hitems ▸ List.mem_singleton_self item) with ⟨f, short, attached, rfl⟩
          cases h
        · cases h
        · -- a negative number, or a text with a space in it
          split at h
          · exact (Item.word.inj (Option.some.inj h)).symm
          · cases h
  · exact (Item.word.inj (Option.some.inj h)).symm

/-! ## One argument -/

/-- An option by itself names no snapshot. -/
theorem snapshot_of_apply_flag {p : Progress} {f : Flag} {short : Bool} {attached : Option Text}
    (h : apply {} [.flag f short attached] = .ok p) : p.snapshot = none := by
  cases attached with
  | none =>
    unfold apply at h
    split at h
    · cases h
    · obtain ⟨q, hq, h⟩ := exists_of_bind_eq_ok h
      obtain rfl := Except.ok.inj h
      exact Progress.snapshot_of_turnOn hq
  | some value =>
    unfold apply at h
    obtain ⟨q, hq, h⟩ := exists_of_bind_eq_ok h
    obtain rfl := Except.ok.inj h
    exact Progress.snapshot_of_applyAttached hq

/-- A command line of one argument asks for the snapshot of that name and for nothing else. -/
theorem Arguments.eq_of_parse_singleton {path : Text} {request : Arguments} (h : parse [path] = .ok request) :
    request = { snapshot := path } := by
  unfold parse classifyAll at h
  by_cases hdashes : path = twoDashes
  · subst hdashes
    cases h
  · rw [if_neg hdashes] at h
    cases hitem : classify path with
    | none => simp [hitem, bind, Option.bind] at h
    | some item =>
      simp only [hitem, classifyAll, bind, Option.bind] at h
      cases item with
      | word w =>
        obtain rfl := eq_of_classify_eq_word hitem
        exact (Except.ok.inj h).symm
      | separator => cases h
      | unknown => cases h
      | flag f short attached =>
        -- the option may do what it does, but there is no snapshot in the end
        obtain ⟨p, hp, h⟩ := exists_of_bind_eq_ok h
        simp only [snapshot_of_apply_flag hp] at h
        cases h

end Barline.CommandLine
