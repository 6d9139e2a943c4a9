namespace GLHeader.Text

def runs (p : Char → Bool) (s : List Char) : List (List Char) :=
  (s.splitOnP (!p ·)).filter (!·.isEmpty)

section Runs

variable {p : Char → Bool} {c : Char}

theorem runs_nil : runs p [] = [] := rfl

theorem runs_append_cons (other : p c = false) (s t : List Char) :
    runs p (s ++ c :: t) = runs p s ++ runs p t := by
  rw [runs, List.splitOnP_append_cons _ _ (by simp [other]), List.filter_append]
  rfl

theorem runs_cons_of_not (other : p c = false) (s : List Char) : runs p (c :: s) = runs p s :=
  runs_append_cons other [] s

theorem runs_concat_of_not (other : p c = false) (s : List Char) : runs p (s ++ [c]) = runs p s := by
  rw [runs_append_cons other, runs_nil, List.append_nil]

theorem runs_cons_of_next {s : List Char} (own : p c = true) (next : s.head?.any p = true) :
    ∃ first rest, runs p s = first :: rest ∧ runs p (c :: s) = (c :: first) :: rest := by
  cases s with
  | nil => cases next
  | cons d s =>
    have within : p d = true := next
    obtain ⟨w, ws, same⟩ := List.exists_cons_of_ne_nil (List.splitOnP_ne_nil (!p ·) s)
    refine ⟨d :: w, ws.filter (!·.isEmpty), ?_, ?_⟩ <;>
      simp [runs, List.splitOnP_cons_eq_if_modifyHead, own, within, same]

theorem runs_cons_of_last {s : List Char} (own : p c = true) (last : s.head?.any p = false) :
    runs p (c :: s) = [c] :: runs p s := by
  cases s with
  | nil => simp [runs, List.splitOnP_cons_eq_if_modifyHead, own]
  | cons d s =>
    have other : p d = false := last
    have parted : runs p ([c] ++ d :: s) = runs p [c] ++ runs p s := runs_append_cons other [c] s
    have single : runs p [c] = [[c]] := by simp [runs, List.splitOnP_cons_eq_if_modifyHead, own]
    rw [runs_cons_of_not other, ← List.singleton_append, parted, single, List.singleton_append]

theorem runs_append_of_not {gap : List Char} (other : ∀ c ∈ gap, p c = false) (t : List Char) :
    runs p (gap ++ t) = runs p t := by
  induction gap with
  | nil => rfl
  | cons c gap ih =>
    obtain ⟨first, later⟩ := List.forall_mem_cons.mp other
    rw [List.cons_append, runs_cons_of_not first, ih later]

theorem runs_append_gap {gap : List Char} (some : gap ≠ []) (other : ∀ c ∈ gap, p c = false)
    (s t : List Char) : runs p (s ++ (gap ++ t)) = runs p s ++ runs p t := by
  obtain ⟨c, rest, rfl⟩ := List.exists_cons_of_ne_nil some
  obtain ⟨first, later⟩ := List.forall_mem_cons.mp other
  rw [List.cons_append, runs_append_cons first, runs_append_of_not later]

theorem runs_append_gap_right {gap : List Char} (other : ∀ c ∈ gap, p c = false) (s : List Char) :
    runs p (s ++ gap) = runs p s := by
  by_cases empty : gap = []
  · rw [empty, List.append_nil]
  · simpa [runs_nil] using runs_append_gap empty other s []

theorem runs_append_of_stop {s : List Char} (stop : s.getLast?.any p = false) (t : List Char) :
    runs p (s ++ t) = runs p s ++ runs p t := by
  rcases List.eq_nil_or_concat s with rfl | ⟨first, c, rfl⟩
  · rfl
  · have other : p c = false := by simpa using stop
    rw [List.concat_eq_append, List.append_assoc, List.singleton_append, runs_append_cons other,
      runs_concat_of_not other]

theorem runs_append_of_start {t : List Char} (start : t.head?.any p = false) (s : List Char) :
    runs p (s ++ t) = runs p s ++ runs p t := by
  cases t with
  | nil => rw [runs_nil, List.append_nil, List.append_nil]
  | cons c t =>
    have other : p c = false := start
    rw [runs_append_cons other, runs_cons_of_not other]

theorem runs_append_of_meet {s t : List Char} (stop : s.getLast?.any p = true) (start : t.head?.any p = true) :
    ∃ before w v after, runs p s = before ++ [w] ∧ runs p t = v :: after ∧
      runs p (s ++ t) = before ++ (w ++ v) :: after := by
  induction s with
  | nil => cases stop
  | cons c s ih =>
    cases s with
    | nil =>
      have own : p c = true := stop
      obtain ⟨v, after, first, joined⟩ := runs_cons_of_next own start
      exact ⟨[], [c], v, after, runs_cons_of_last own rfl, first, joined⟩
    | cons d s =>
      obtain ⟨before, w, v, after, first, second, joined⟩ := ih (by rwa [List.getLast?_cons_cons] at stop)
      rw [List.cons_append] at joined
      rw [List.cons_append, List.cons_append]
      cases own : p c with
      | false =>
        rw [runs_cons_of_not own, runs_cons_of_not own]
        exact ⟨before, w, v, after, first, second, joined⟩
      | true =>
        cases next : p d with
        | false =>
          rw [runs_cons_of_last (s := d :: s) own next, runs_cons_of_last (s := d :: (s ++ t)) own next]
          exact ⟨[c] :: before, w, v, after, by rw [first, List.cons_append], second, by rw [joined, List.cons_append]⟩
        | true =>
          obtain ⟨u, us, parts, longer⟩ := runs_cons_of_next (s := d :: s) own next
          obtain ⟨u', us', parts', longer'⟩ := runs_cons_of_next (s := d :: (s ++ t)) own next
          rw [longer, longer']
          rw [parts] at first
          rw [parts'] at joined
          -- The character belongs to the first run, which is the one that goes on if there is no other.
          cases before with
          | nil =>
            obtain ⟨rfl, rfl⟩ := List.cons.inj first
            obtain ⟨rfl, rfl⟩ := List.cons.inj joined
            exact ⟨[], c :: u, v, us', rfl, second, rfl⟩
          | cons x before =>
            obtain ⟨rfl, rfl⟩ := List.cons.inj first
            obtain ⟨rfl, rfl⟩ := List.cons.inj joined
            exact ⟨(c :: u') :: before, w, v, after, rfl, second, rfl⟩

theorem length_runs_append {s t : List Char} (stop : s.getLast?.any p = true) (start : t.head?.any p = true) :
    (runs p (s ++ t)).length + 1 = (runs p s).length + (runs p t).length := by
  obtain ⟨before, w, v, after, first, second, joined⟩ := runs_append_of_meet stop start
  simp only [first, second, joined, List.length_append, List.length_cons, List.length_nil]
  omega

theorem runs_append_congr {s s' t t' : List Char} (first : runs p s = runs p s') (second : runs p t = runs p t')
    (stop : s.getLast?.any p = s'.getLast?.any p) (start : t.head?.any p = t'.head?.any p) :
    runs p (s ++ t) = runs p (s' ++ t') := by
  cases stop' : s'.getLast?.any p with
  | false => rw [runs_append_of_stop (stop.trans stop'), runs_append_of_stop stop', first, second]
  | true =>
    cases start' : t'.head?.any p with
    | false => rw [runs_append_of_start (start.trans start'), runs_append_of_start start', first, second]
    | true =>
      obtain ⟨before, w, v, after, left, right, joined⟩ := runs_append_of_meet (stop.trans stop') (start.trans start')
      obtain ⟨before', w', v', after', left', right', joined'⟩ := runs_append_of_meet stop' start'
      obtain ⟨rfl, same⟩ := List.append_inj' (left.symm.trans (first.trans left')) rfl
      obtain rfl := List.singleton_inj.mp same
      obtain ⟨rfl, rfl⟩ := List.cons.inj (right.symm.trans (second.trans right'))
      rw [joined, joined']

theorem runs_cons_congr {s t : List Char} (c : Char) (same : runs p s = runs p t)
    (start : s.head?.any p = t.head?.any p) : runs p (c :: s) = runs p (c :: t) :=
  runs_append_congr (rfl : runs p [c] = runs p [c]) same rfl start

/-- The first text has the runs of the second one, or where some of these are joined it has fewer. -/
def Merges (p : Char → Bool) (joined : Prop) (s t : List Char) : Prop :=
  ¬ joined ∧ runs p s = runs p t ∨ joined ∧ (runs p s).length < (runs p t).length

theorem Merges.eq_iff {joined : Prop} {s t : List Char} (h : Merges p joined s t) :
    runs p s = runs p t ↔ ¬ joined := by
  rcases h with ⟨apart, same⟩ | ⟨joined, fewer⟩
  · exact iff_of_true same apart
  · refine iff_of_false (fun same => ?_) (not_not_intro joined)
    rw [same] at fewer
    exact Nat.lt_irrefl _ fewer

theorem Merges.trans {first later : Prop} {s t u : List Char} (h : Merges p first s t)
    (k : Merges p later t u) : Merges p (first ∨ later) s u := by
  rcases h with ⟨apart, same⟩ | ⟨joined, fewer⟩
  · rw [Merges, same]
    rcases k with ⟨apart', same'⟩ | ⟨joined', fewer'⟩
    · exact .inl ⟨fun h => h.elim apart apart', same'⟩
    · exact .inr ⟨.inr joined', fewer'⟩
  · rcases k with ⟨-, same'⟩ | ⟨-, fewer'⟩
    · exact .inr ⟨.inl joined, same' ▸ fewer⟩
    · exact .inr ⟨.inl joined, Nat.lt_trans fewer fewer'⟩

theorem merges_gap {gap : List Char} (other : ∀ c ∈ gap, p c = false) (s t : List Char) :
    Merges p (gap ≠ [] ∧ s.getLast?.any p = true ∧ t.head?.any p = true) (s ++ t) (s ++ (gap ++ t)) := by
  by_cases empty : gap = []
  · subst empty
    exact .inl ⟨fun h => h.1 rfl, rfl⟩
  · have parted := runs_append_gap empty other s t
    cases stop : s.getLast?.any p with
    | false => exact .inl ⟨by simp, by rw [parted, runs_append_of_stop stop]⟩
    | true =>
      cases start : t.head?.any p with
      | false => exact .inl ⟨by simp, by rw [parted, runs_append_of_start start]⟩
      | true =>
        have fewer := length_runs_append stop start
        refine .inr ⟨⟨empty, rfl, rfl⟩, ?_⟩
        rw [parted, List.length_append]
        omega

end Runs

end GLHeader.Text
