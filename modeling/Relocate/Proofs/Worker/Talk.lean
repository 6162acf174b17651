import Relocate.Proofs.Worker.Exchange

namespace Relocate.Worker

/-- What a run adds to a journal while it starts nothing and the worker takes `bytes`. -/
structure Adds (bytes : Utf8.Bytes) (es : List Event) : Prop where
  sent : sentBytes es = bytes
  calm : ∀ e ∈ es, e.isLaunch = false

namespace Adds

variable {bytes bytes' : Utf8.Bytes} {es es' : List Event}

theorem nil : Adds [] [] := ⟨rfl, List.forall_mem_nil _⟩

theorem append (h : Adds bytes es) (h' : Adds bytes' es') : Adds (bytes ++ bytes') (es ++ es') := by
  refine ⟨by rw [sentBytes_append, h.sent, h'.sent], fun e he => ?_⟩
  exact (List.mem_append.mp he).elim (h.calm e) (h'.calm e)

theorem entries (entries : List Log.Entry) : Adds [] (entries.map .logged) := by
  refine ⟨sentBytes_logged entries, fun e he => ?_⟩
  obtain ⟨entry, -, rfl⟩ := List.mem_map.mp he
  rfl

theorem sending (bytes : Utf8.Bytes) : Adds bytes (if bytes = [] then [] else [.sent bytes]) := by
  by_cases h : bytes = []
  · rw [if_pos h, h]
    exact nil
  · rw [if_neg h]
    exact ⟨by simp [sentBytes], by simp [Event.isLaunch]⟩

end Adds

def Pipes.past (p : Pipes) (xs : List Exchange) : Pipes := xs.foldl (fun p x => p.after x.id x.line) p

theorem Pipes.past_append (p : Pipes) (xs ys : List Exchange) :
    p.past (xs ++ ys) = (p.past xs).past ys := List.foldl_append

/-- From `r` to `r'` a run has had just these exchanges with the worker, and it has started
nothing. -/
structure Talk (r r' : Run Link) (xs : List Exchange) : Prop where
  journal : ∃ es, r'.journal = r.journal ++ es ∧ Adds (xs.flatMap Exchange.written) es
  ids : xs.map Exchange.id = List.range' r.engine.nextId xs.length
  nextId : r'.engine.nextId = r.engine.nextId + xs.length
  lines : r.engine.unread = xs.flatMap Exchange.taken ++ r'.engine.unread
  written : ∀ x ∈ xs, x.written <+: x.line
  /-- Only when the worker was lost over it a request may be cut short. -/
  whole : ∀ a x b, xs = a ++ x :: b → b ≠ [] ∨ r'.engine.isRunning = true → x.written = x.line
  started : xs ≠ [] → r.engine.isRunning = true
  kept : r'.engine.isRunning = true → r.engine.isRunning = true
  heard : ∀ p, r.engine.pipes = some p → ∀ a x b, xs = a ++ x :: b →
    x.result = (p.past a).answered x.id x.line
  left : ∀ p, r.engine.pipes = some p → r'.engine.pipes =
    if xs.any fun x => isCrash x.result then none else some (p.past xs)

namespace Talk

variable {r r' r'' : Run Link} {xs ys : List Exchange}

theorem quiet (hk : r'.engine = r.engine) {es : List Event} (hj : r'.journal = r.journal ++ es)
    (ha : Adds [] es) : Talk r r' [] where
  journal := ⟨es, hj, ha⟩
  ids := rfl
  nextId := by rw [hk]; rfl
  lines := by rw [hk]; rfl
  written := List.forall_mem_nil _
  whole a x b h := by simp at h
  started h := absurd rfl h
  kept h := by rwa [hk] at h
  heard p hp a x b h := by simp at h
  left p hp := by rw [hk, hp]; rfl

theorem refl (r : Run Link) : Talk r r [] := quiet rfl (List.append_nil _).symm .nil

theorem told (h : r.Extends Event.isTold r') : Talk r r' [] := by
  obtain ⟨es, hj, he⟩ := h.journal
  exact quiet h.engine hj ⟨sentBytes_spared fun e hm => Event.spares_of_told (he e hm),
    fun e hm => Event.no_launch_of_told (he e hm)⟩

theorem one {x : Exchange} (h : x.Leads r r') (hr : r.engine.isRunning = true) : Talk r r' [x] where
  journal := by
    obtain ⟨before, after, hj⟩ := h.journal
    refine ⟨before.map .logged ++ ((if x.written = [] then [] else [.sent x.written]) ++
      after.map .logged), by simpa using hj, ?_⟩
    have ha := (Adds.entries before).append ((Adds.sending x.written).append (.entries after))
    simpa using ha
  ids := by simp [h.id]
  nextId := h.nextId
  lines := by simpa using h.lines
  written := by simpa using h.written
  whole a y b hy hb := by
    obtain ⟨rfl, rfl, rfl⟩ : a = [] ∧ y = x ∧ b = [] := by
      cases a <;> simp_all
    have hc : isCrash y.result = false := by
      simpa [h.running] using hb
    exact h.whole hc
  started _ := hr
  kept _ := hr
  heard p hp a y b hy := by
    obtain ⟨rfl, rfl⟩ : a = [] ∧ y = x := by
      cases a <;> simp_all
    exact (h.heard p hp).1
  left p hp := by
    rw [(h.heard p hp).2, List.any_cons, List.any_nil, Bool.or_false]
    rfl

theorem running (h : Talk r r' xs) (hr : r.engine.isRunning = true)
    (hc : ∀ x ∈ xs, isCrash x.result = false) : r'.engine.isRunning = true := by
  obtain ⟨p, hp⟩ := Link.pipes_of_running hr
  have hn : ¬ (xs.any fun x => isCrash x.result) = true := by simpa using hc
  exact Link.running_of_pipes ((h.left p hp).trans (if_neg hn))

theorem pipes_of_running {p : Pipes} (h : Talk r r' xs) (hp : r.engine.pipes = some p)
    (hr : r'.engine.isRunning = true) : r'.engine.pipes = some (p.past xs) := by
  have hl := h.left p hp
  split at hl
  · rw [Link.isRunning_eq, hl] at hr
    cases hr
  · exact hl

theorem trans (h : Talk r r' xs) (h' : Talk r' r'' ys) : Talk r r'' (xs ++ ys) where
  journal := by
    obtain ⟨es, hj, ha⟩ := h.journal
    obtain ⟨es', hj', ha'⟩ := h'.journal
    exact ⟨es ++ es', by rw [hj', hj, List.append_assoc], by
      rw [List.flatMap_append]; exact ha.append ha'⟩
  ids := by
    rw [List.map_append, h.ids, h'.ids, h.nextId, List.length_append]
    exact List.range'_append_1
  nextId := by rw [h'.nextId, h.nextId, List.length_append, Nat.add_assoc]
  lines := by rw [h.lines, h'.lines, List.flatMap_append, List.append_assoc]
  written x hx := (List.mem_append.mp hx).elim (h.written x) (h'.written x)
  whole a x b hx hb := by
    -- A request of the first talk is followed by one of the second only if the worker still ran
    -- in between, so that it was not cut short either.
    obtain ⟨as, -, hy⟩ | ⟨bs, hxs, hys⟩ := List.append_eq_append_iff.mp hx
    · exact h'.whole as x b hy hb
    · cases bs with
      | nil => exact h'.whole [] x b hys.symm hb
      | cons x' bs =>
        obtain ⟨rfl, rfl⟩ := List.cons.inj hys
        refine h.whole a x bs hxs ?_
        by_cases hn : ys = []
        · subst hn
          have hb' : bs ≠ [] ∨ r''.engine.isRunning = true := by
            simpa only [List.append_eq, List.append_nil] using hb
          exact hb'.imp_right h'.kept
        · exact .inr (h'.started hn)
  started hn := by
    by_cases hx : xs = []
    · rw [hx] at hn
      exact h.kept (h'.started hn)
    · exact h.started hx
  kept hr := h.kept (h'.kept hr)
  heard p hp a x b hx := by
    obtain ⟨as, rfl, hy⟩ | ⟨bs, hxs, hys⟩ := List.append_eq_append_iff.mp hx
    · have hq := h.pipes_of_running hp (h'.started (by simp [hy]))
      rw [Pipes.past_append]
      exact h'.heard _ hq as x b hy
    · cases bs with
      | nil =>
        rw [List.nil_append] at hys
        have hq := h.pipes_of_running hp (h'.started (by simp [← hys]))
        rw [List.append_nil] at hxs
        rw [← hxs]
        exact h'.heard _ hq [] x b hys.symm
      | cons x' bs =>
        obtain ⟨rfl, rfl⟩ := List.cons.inj hys
        exact h.heard p hp a x bs hxs
  left p hp := by
    have hl := h.left p hp
    rw [List.any_append]
    cases hc : xs.any fun x => isCrash x.result with
    | true =>
      rw [hc, if_pos rfl] at hl
      rw [Bool.true_or, if_pos rfl]
      -- Once lost, the worker does not come back.
      refine Link.pipes_of_idle (Bool.eq_false_iff.mpr fun hr => ?_)
      have hr' := h'.kept hr
      rw [Link.isRunning_eq, hl] at hr'
      cases hr'
    | false =>
      rw [hc, if_neg Bool.false_ne_true] at hl
      rw [h'.left _ hl, Bool.false_or, Pipes.past_append]

theorem workers (h : Talk r r' xs) : workers r'.journal = workers r.journal := by
  obtain ⟨es, hj, he⟩ := h.journal
  rw [hj, workers_append, workers_none fun e hm => Event.no_start_of_no_launch (he.calm e hm),
    List.append_nil]

theorem before_told (h : Talk r r' xs) (ht : r'.Extends Event.isTold r'') : Talk r r'' xs := by
  have hs := h.trans (told ht)
  rwa [List.append_nil] at hs

end Talk

end Relocate.Worker
