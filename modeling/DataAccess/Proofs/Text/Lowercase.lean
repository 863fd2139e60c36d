import DataAccess.Text.Lowercase

/-!
# Lower case taken twice

A token goes through lower case more than once before it is looked up. For tokens of basic Latin
characters the second time changes nothing, with one exception among the letters: the Kelvin sign
has the basic `k` as its lower-case form.

- `Text.basic_of_lowercase`: what has a basic lower-case form without a `k` is basic itself.
- `Text.toLower_of_mem_lowercase`: basic characters of a lower-case form are in lower case.
- `Text.lowercase_of_lowercase_eq`: a lower-case form that reads as a token is that token.
-/

namespace DataAccess

namespace Text

/-- The table leads out of the basic characters, except for the Kelvin sign, and never to a number
that is no character. -/
theorem lowerRuns_target : ∀ run ∈ lowerRuns,
    (0x80 ≤ run.target ∨ run.target = 0x6B ∧ run.first = run.last) ∧
      (run.target + (run.last - run.first) < 0xD800 ∨
        0xE000 ≤ run.target ∧ run.target + (run.last - run.first) < 0x110000) := by
  decide +kernel

theorem toNat_ofNat {n : Nat} (h : n < 0xD800 ∨ 0xE000 ≤ n ∧ n < 0x110000) :
    (Char.ofNat n).toNat = n := by
  have hvalid : n.isValidChar := by
    unfold Nat.isValidChar
    omega
  rw [Char.ofNat, dif_pos hvalid]
  rfl

/-- The partner of a character is no basic one, or it is `k`. -/
theorem partner_not_basic {n m : Nat} (h : lowerRuns.findSome? (·.partner? n) = some m) :
    0x80 ≤ (Char.ofNat m).toNat ∨ Char.ofNat m = 'k' := by
  obtain ⟨run, hrun, hpartner⟩ := List.exists_of_findSome?_eq_some h
  obtain ⟨hlow, hvalid⟩ := lowerRuns_target run hrun
  unfold LowerRun.partner? at hpartner
  split at hpartner
  · rename_i hin
    cases hpartner
    obtain ⟨hfirst, hlast, -⟩ := hin
    rcases hlow with hlow | ⟨hk, hone⟩
    · left
      rw [toNat_ofNat (by omega)]
      exact Nat.le_trans hlow (Nat.le_add_right _ _)
    · right
      have htarget : run.target + (n - run.first) = 0x6B := by omega
      rw [htarget]
  · cases hpartner

/-- The lower-case form of a character that is not basic shows a character that is not basic,
or it is `k`. -/
theorem lowercaseChar_not_basic {c : Char} (hc : 0x80 ≤ c.toNat) :
    (∃ d ∈ lowercaseChar c, 0x80 ≤ d.toNat) ∨ lowercaseChar c = ['k'] := by
  unfold lowercaseChar
  rw [if_neg (by omega)]
  split
  · left
    exact ⟨Char.ofNat 0x307, by simp, by decide⟩
  · split
    · rename_i m hm
      rcases partner_not_basic hm with h | h
      · exact .inl ⟨_, List.mem_singleton_self _, h⟩
      · exact .inr (congrArg (fun d => [d]) h)
    · exact .inl ⟨c, List.mem_singleton_self c, hc⟩

theorem toLower_toLower {c : Char} (hc : c.toNat < 0x80) : c.toLower.toLower = c.toLower := by
  have hall : ∀ n < 0x80, (Char.ofNat n).toLower.toLower = (Char.ofNat n).toLower := by decide
  rw [← Char.ofNat_toNat c]
  exact hall _ hc

/-- A basic character in the lower-case form of a character is in lower case. -/
theorem toLower_of_mem_lowercaseChar {c d : Char} (hd : d ∈ lowercaseChar c)
    (hbasic : d.toNat < 0x80) : d.toLower = d := by
  unfold lowercaseChar at hd
  split at hd
  · rename_i hc
    rw [List.mem_singleton.1 hd]
    exact toLower_toLower hc
  · rename_i hc
    split at hd
    · rcases List.mem_cons.1 hd with rfl | hd
      · decide
      · rw [List.mem_singleton.1 hd] at hbasic
        exact absurd hbasic (by decide)
    · split at hd
      · rename_i m hm
        rw [List.mem_singleton.1 hd] at hbasic ⊢
        rcases partner_not_basic hm with h | h
        · omega
        · rw [h]
          decide
      · rw [List.mem_singleton.1 hd] at hbasic
        exact absurd hbasic hc

/-- Basic characters of a lower-case form are in lower case. -/
theorem toLower_of_mem_lowercaseAfter {cs before : List Char} {d : Char}
    (hd : d ∈ lowercaseAfter before cs) (hbasic : d.toNat < 0x80) : d.toLower = d := by
  induction cs generalizing before with
  | nil => cases hd
  | cons c rest ih =>
    unfold lowercaseAfter at hd
    dsimp only at hd
    rcases List.mem_append.1 hd with hd | hd
    · split at hd
      · -- the two lower-case forms of sigma are not basic
        rw [List.mem_singleton.1 hd] at hbasic
        exfalso
        revert hbasic
        split <;> decide
      · exact toLower_of_mem_lowercaseChar hd hbasic
    · exact ih hd

/-- What has a basic lower-case form without a `k` is basic itself. -/
theorem basic_of_lowercaseAfter {cs : List Char} (before : List Char)
    (hbasic : ∀ d ∈ lowercaseAfter before cs, d.toNat < 0x80)
    (hk : 'k' ∉ lowercaseAfter before cs) : ∀ c ∈ cs, c.toNat < 0x80 := by
  induction cs generalizing before with
  | nil => exact fun _ hc => nomatch hc
  | cons c rest ih =>
    unfold lowercaseAfter at hbasic hk
    dsimp only at hbasic hk
    intro c' hc'
    rcases List.mem_cons.1 hc' with rfl | hc'
    · refine Nat.lt_of_not_le fun hnot => ?_
      split at hbasic
      · have hsigma := hbasic _ (List.mem_append_left _ (List.mem_singleton_self _))
        revert hsigma
        split <;> decide
      · rename_i hs
        rw [if_neg hs] at hk
        rcases lowercaseChar_not_basic hnot with ⟨d, hd, hhigh⟩ | hkelvin
        · have hlow := hbasic d (List.mem_append_left _ hd)
          omega
        · refine hk (List.mem_append_left _ ?_)
          rw [hkelvin]
          exact List.mem_singleton_self _
    · exact ih (c :: before) (fun d hd => hbasic d (List.mem_append_right _ hd))
        (fun hmem => hk (List.mem_append_right _ hmem)) c' hc'

/-- A lower-case form whose lower-case form is a token is that token, if the token is made of basic
characters other than `k`. -/
theorem lowercase_of_lowercase_eq {cs token : List Char} (hbasic : ∀ d ∈ token, d.toNat < 0x80)
    (hk : 'k' ∉ token) (h : lowercase (lowercase cs) = token) : lowercase cs = token := by
  have hlow : ∀ d ∈ lowercase cs, d.toNat < 0x80 := by
    refine basic_of_lowercaseAfter [] ?_ ?_
    · show ∀ d ∈ lowercase (lowercase cs), d.toNat < 0x80
      rw [h]
      exact hbasic
    · show 'k' ∉ lowercase (lowercase cs)
      rw [h]
      exact hk
  rw [lowercase_of_basic hlow] at h
  rw [← h]
  refine (List.map_id' _).symm.trans (List.map_congr_left fun d hd => ?_)
  exact (toLower_of_mem_lowercaseAfter hd (hlow d hd)).symm

end Text

end DataAccess
