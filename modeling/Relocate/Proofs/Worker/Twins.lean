import Relocate.Proofs.Worker.Lifecycle

namespace Relocate.Worker

open Relocate.Action

/-- The pipes take every request with a number below `limit`, the next one being `id`. -/
def Pipes.TakesBelow (p : Pipes) (limit id : Nat) : Prop := ∀ c ∈ p.closing, limit ≤ id + c.requests

theorem Pipes.TakesBelow.write {p : Pipes} {limit id : Nat} (h : p.TakesBelow limit id)
    (hid : id + 1 ≤ limit) (line : Utf8.Bytes) :
    (p.write line).complete = true ∧ (p.write line).pipes.TakesBelow limit (id + 1) := by
  unfold TakesBelow at h ⊢
  unfold Pipes.write
  split
  · rename_i hc
    exact ⟨rfl, fun c hm => Nat.le_trans (h c hm) (by omega)⟩
  · rename_i n bytes hc
    have hn := h _ hc
    refine ⟨rfl, fun c hm => ?_⟩
    obtain rfl := Option.some.inj hm
    dsimp only at hn ⊢
    omega
  · rename_i bytes hc
    have hn := h _ hc
    dsimp only at hn
    omega

/-- Two runs at the same point, though their workers are going to go different ways. From here on the
lines of the first are some lines and then `later`, those of the second the same lines and then
`later'`. The second worker takes all requests with numbers below `limit`. -/
inductive Twins (later later' : List Line) (limit : Nat) (r : Run Link) : Run Link → Prop
  | intro {p p' : Pipes} {lines : List Line} (hp : r.engine.pipes = some p)
    (hu : p.unread = lines ++ later) (hu' : p'.unread = lines ++ later')
    (hc : p'.TakesBelow limit r.engine.nextId) :
    Twins later later' limit r { r with engine := r.engine.piping p' }

theorem Twins.journal_eq {later later' : List Line} {limit : Nat} {r r' : Run Link}
    (h : Twins later later' limit r r') : r'.journal = r.journal := by
  cases h
  rfl

theorem Twins.of_piping {later later' lines : List Line} {limit : Nat} {r : Run Link}
    {journal : List Event} {k : Link} {p q q' : Pipes} (hp : k.pipes = some p)
    (hu : q.unread = lines ++ later) (hu' : q'.unread = lines ++ later')
    (hc : q'.TakesBelow limit k.nextId) :
    Twins later later' limit { r with journal := journal, engine := k.piping q }
      { r with journal := journal, engine := k.piping q' } := by
  have ht := Twins.intro (r := { r with journal := journal, engine := k.piping q })
    (Link.pipes_piping hp q) hu hu' hc
  rwa [Link.piping_piping] at ht

namespace Link

structure Follows (later : List Line) (limit : Nat) (k : Link) : Prop where
  running : k.isRunning = true
  unread : later <:+ k.unread
  nextId : k.nextId ≤ limit

theorem Follows.self {k : Link} (h : k.isRunning = true) : k.Follows k.unread k.nextId :=
  ⟨h, List.suffix_rfl, Nat.le_refl _⟩

/-- How a link changes by what is asked of the worker: it does not come back once it is gone, its
end is waited for then, its lines are read in order, and numbers are used up. -/
structure Onward (k k' : Link) : Prop where
  whole : k.IsWhole → k'.IsWhole
  running : k'.isRunning = true → k.isRunning = true
  unread : k'.unread <:+ k.unread
  nextId : k.nextId ≤ k'.nextId
  tends : ∀ program, k.Tends program → k'.Tends program

variable {k k' k'' : Link}

theorem Onward.refl (k : Link) : k.Onward k := ⟨id, id, List.suffix_rfl, Nat.le_refl _, fun _ => id⟩

theorem Onward.trans (h : k.Onward k') (h' : k'.Onward k'') : k.Onward k'' where
  whole := h'.whole ∘ h.whole
  running := h.running ∘ h'.running
  unread := h'.unread.trans h.unread
  nextId := Nat.le_trans h.nextId h'.nextId
  tends program := h'.tends program ∘ h.tends program

theorem Onward.follows {later : List Line} {limit : Nat} (h : k.Onward k')
    (hf : k'.Follows later limit) : k.Follows later limit where
  running := h.running hf.running
  unread := hf.unread.trans h.unread
  nextId := Nat.le_trans h.nextId hf.nextId

end Link

/-- Whatever the run, an action takes the link onward. Twins stay twins over it as long as their
workers have not gone different ways, and it comes to the same for both. -/
def Steady {ε α : Type} (a : Action (Run Link) ε α) : Prop :=
  ∀ r, r.engine.Onward (exec a r).2.engine ∧
    ∀ later later' limit r', Twins later later' limit r r' →
      (exec a r).2.engine.Follows later limit →
        ∃ t, exec a r' = ((exec a r).1, t) ∧ Twins later later' limit (exec a r).2 t

namespace Steady

variable {ε δ α β : Type}

theorem pure (x : α) : Steady (pure x : Action (Run Link) ε α) :=
  fun _ => ⟨.refl _, fun _ _ _ r' ht _ => ⟨r', rfl, ht⟩⟩

theorem throw (e : ε) : Steady (throw e : Action (Run Link) ε α) :=
  fun _ => ⟨.refl _, fun _ _ _ r' ht _ => ⟨r', rfl, ht⟩⟩

theorem liftM (x : Except ε α) : Steady (liftM x : Action (Run Link) ε α) :=
  fun _ => ⟨.refl _, fun _ _ _ r' ht _ => ⟨r', rfl, ht⟩⟩

theorem bind {a : Action (Run Link) ε α} {f : α → Action (Run Link) ε β} (ha : Steady a)
    (hf : ∀ x, Steady (f x)) : Steady (a >>= f) := by
  intro r
  obtain ⟨ho, ht⟩ := ha r
  rcases hx : exec a r with ⟨x, r₁⟩
  rw [hx] at ho ht
  cases x with
  | error e =>
    rw [exec_bind_of_error hx]
    refine ⟨ho, fun later later' limit r' hr hl => ?_⟩
    obtain ⟨t, he, hw⟩ := ht later later' limit r' hr hl
    exact ⟨t, exec_bind_of_error he, hw⟩
  | ok x =>
    obtain ⟨ho', ht'⟩ := hf x r₁
    rw [exec_bind_of_ok hx]
    refine ⟨ho.trans ho', fun later later' limit r' hr hl => ?_⟩
    -- What the workers have not done at the end they have not done in between.
    obtain ⟨t, he, hw⟩ := ht later later' limit r' hr (ho'.follows hl)
    rw [exec_bind_of_ok he]
    exact ht' later later' limit t hw hl

theorem mapError {a : Action (Run Link) ε α} (h : Steady a) (f : ε → δ) : Steady (a.mapError f) := by
  intro r
  obtain ⟨ho, ht⟩ := h r
  rw [exec_mapError]
  refine ⟨ho, fun later later' limit r' hr hl => ?_⟩
  obtain ⟨t, he, hw⟩ := ht later later' limit r' hr hl
  exact ⟨t, by rw [exec_mapError, he], hw⟩

theorem reading {a : Action (Run Link) ε α} (h : Steady a) (f : α → Except ε β) :
    Steady (a.reading f) := bind h fun _ => liftM _

theorem forM {f : α → Action (Run Link) ε PUnit} (h : ∀ x, Steady (f x)) (xs : List α) :
    Steady (xs.forM f) := by
  induction xs with
  | nil => exact pure _
  | cons x xs ih => exact bind (h x) fun _ => ih

theorem of_apart {a : Action (Run Link) ε α}
    (h : ∀ r k, exec a { r with engine := k } = ((exec a r).1, { (exec a r).2 with engine := k })) :
    Steady a := by
  intro r
  have hk : (exec a r).2.engine = r.engine := congrArg (fun x => x.2.engine) (h r r.engine)
  rw [hk]
  refine ⟨.refl _, fun later later' limit r' hr _ => ?_⟩
  obtain @⟨p, p', lines, hp, hu, hu', hc⟩ := hr
  rw [← hk] at hp hc ⊢
  exact ⟨_, h r _, .intro hp hu hu' hc⟩

theorem version {f : Option String → Action (Run Link) ε α} (h : ∀ v, Steady (f v)) :
    Steady (get >>= fun r => f r.engine.version) := by
  intro r
  rw [exec_bind_of_ok (exec_get r)]
  obtain ⟨ho, ht⟩ := h r.engine.version r
  refine ⟨ho, fun later later' limit r' hr hl => ?_⟩
  rw [exec_bind_of_ok (exec_get r')]
  have hv : r'.engine.version = r.engine.version := by
    obtain @⟨p, p', lines, -, -, -, -⟩ := hr
    rfl
  rw [hv]
  exact ht later later' limit r' hr hl

theorem record (e : Event) : Steady (Run.record e : Action (Run Link) ε Unit) :=
  of_apart fun _ _ => rfl

theorem log (e : Log.Entry) : Steady (Run.log e : Action (Run Link) ε Unit) := record _

end Steady

theorem taken_before {taken rest lines later : List Line} (h : taken ++ rest = lines ++ later)
    (hl : later <:+ rest) : ∃ more, lines = taken ++ more ∧ rest = more ++ later := by
  obtain ⟨more, rfl⟩ := hl
  rw [← List.append_assoc] at h
  exact ⟨more, (List.append_cancel_right h).symm, rfl⟩

namespace Link

theorem send_onward (operation : String) (parameters : Fields) (r : Run Link) :
    r.engine.Onward (exec (send operation parameters) r).2.engine := by
  cases hr : r.engine.isRunning with
  | false =>
    rw [exec_send_idle operation parameters (pipes_of_idle hr)]
    exact .refl _
  | true =>
    obtain ⟨p, hp⟩ := pipes_of_running hr
    have hx := exchange_leads operation parameters hr
    exact {
      whole := fun _ => send_whole operation parameters hp
      running := fun _ => hr
      unread := ⟨_, hx.lines.symm⟩
      nextId := hx.nextId ▸ Nat.le_succ _
      tends := fun _ => send_tends operation parameters hp }

theorem send_decides {operation : String} {parameters : Fields} {r : Run Link} {p : Pipes}
    (hp : r.engine.pipes = some p)
    (hr : (exec (send operation parameters) r).2.engine.isRunning = true) :
    ∃ taken rest v, p.unread = taken ++ rest ∧ Decides (verdict? r.engine.nextId) taken v ∧
      isCrash v = false ∧ (p.write (requestLine r.engine.nextId operation parameters)).complete = true ∧
      (exec (send operation parameters) r).2.engine.unread = rest ∧
      (exec (send operation parameters) r).2.engine.nextId = r.engine.nextId + 1 := by
  have hx := exchange_leads operation parameters (running_of_pipes hp)
  have hc := hx.running
  rw [hr] at hc
  have hc : isCrash (exchange operation parameters r).result = false := by simpa using hc.symm
  refine ⟨_, _, _, (unread_of_pipes hp).symm.trans hx.lines, ?_, hc, ?_, rfl, hx.nextId⟩
  · exact decides_of_settle (hx.settled hc) hc
  · rw [(hx.heard p hp).1] at hc
    exact Pipes.complete_of_answered hc

/-- A request and its reply: the lines up to that are the same for twins. -/
theorem send_steady (operation : String) (parameters : Fields) :
    Steady (send operation parameters) := by
  refine fun r => ⟨send_onward operation parameters r, ?_⟩
  rintro later later' limit _ @⟨p, p', lines, hp, hu, hu', hc⟩ hf
  obtain ⟨taken, rest, v, ht, hd, hv, hw, hrest, hid⟩ := send_decides hp hf.running
  obtain ⟨more, rfl, rfl⟩ := taken_before (ht.symm.trans hu) (hrest ▸ hf.unread)
  rw [List.append_assoc] at hu hu'
  obtain ⟨hw', hc'⟩ := hc.write (hid ▸ hf.nextId) (requestLine r.engine.nextId operation parameters)
  obtain ⟨es, he⟩ := exec_send_decided operation parameters hd hv
  have h₁ := he r p _ hp rfl hu hw
  have h₂ := he { r with engine := r.engine.piping p' } p' _ (pipes_piping hp p') rfl hu' hw'
  have hk : (numbered operation { r with engine := r.engine.piping p' }).engine =
      (numbered operation r).engine.piping p' := rfl
  rw [hk, piping_piping] at h₂
  rw [h₁]
  have hq : (numbered operation r).engine.pipes = some p := hp
  exact ⟨_, h₂, .of_piping hq rfl rfl hc'⟩

theorem start_twins {h h' : Host} {path : String} {program program' : Host.Running}
    {r r₁ : Run Link} (hp : Finds h path program) (hp' : Finds h' path program')
    (hf : program'.file = program.file)
    (ht : program'.task? .worker = program.task? .worker) {heard later later' : List Line}
    {limit : Nat} (hu : (workerOf program).unread = heard ++ later)
    (hu' : (workerOf program').unread = heard ++ later')
    (hc : (workerOf program').TakesBelow limit 1) (he : exec (start h path) r = (.ok (), r₁))
    (hl : r₁.engine.Follows later limit) :
    ∃ t, exec (start h' path) r = (.ok (), t) ∧ Twins later later' limit r₁ t := by
  obtain ⟨r₂, he₂, -, hk⟩ := exec_start_spawned r hp
  obtain ⟨hw, rfl⟩ := Prod.mk.inj (he₂.symm.trans he)
  have happ : (welcome (workerOf program).fault (workerOf program).unread).1 ++
      (workerOf program).unread.drop
        (welcome (workerOf program).fault (workerOf program).unread).1.length =
      (workerOf program).unread := decided_append tidings? _ _
  rcases hv : welcome (workerOf program).fault (workerOf program).unread with ⟨taken, v⟩
  rw [hv] at hw hk happ
  cases v with
  | error reason => cases hw
  | ok greeting =>
    have hrest := hl.unread
    rw [hk] at hrest
    obtain ⟨more, rfl, -⟩ := taken_before (happ.trans hu) hrest
    rw [List.append_assoc] at hu hu'
    obtain ⟨entries, ha⟩ := exec_awaitGreeting_decided (decides_of_welcome hv)
    have h₁ := ha (workerOf program).fault (more ++ later) (spawned path program r) _ rfl
    have h₂ := ha (workerOf program').fault (more ++ later') (spawned path program' r) _ rfl
    rw [← hu, ← exec_start_found r hp, he] at h₁
    rw [← hu', ← exec_start_found r hp'] at h₂
    rw [(Prod.mk.inj h₁).2]
    refine ⟨_, h₂, ?_⟩
    have hj : (spawned path program' r).journal = (spawned path program r).journal := by
      rw [spawned, spawned, hf, ht]
    rw [hj]
    exact .of_piping (k := { (spawned path program r).engine with version := some greeting.version })
      (p := workerOf program) rfl rfl rfl hc

end Link

end Relocate.Worker
