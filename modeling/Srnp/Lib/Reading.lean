import Mathlib

/-! Readers that take values off the front of a list, and what it means for one
to read back what was written. The relation holds whatever follows, so it
composes: the readers of the parts of a format make a reader of the whole. -/
namespace Reading
variable {σ ε α β : Type}

abbrev Reader (σ ε α : Type) := StateT (List σ) (Except ε) α

theorem Except.bind_eq_ok {x : Except ε α} {f : α → Except ε β} {b : β}
    (h : x >>= f = .ok b) : ∃ a, x = .ok a ∧ f a = .ok b := by
  cases x with
  | error error => contradiction
  | ok a => exact ⟨a, rfl, h⟩

theorem Reader.run_bind_ok {first : Reader σ ε α} {second : α → Reader σ ε β} {list rest : List σ}
    {b : β} (h : (first >>= second).run list = .ok (b, rest)) :
    ∃ a middle, first.run list = .ok (a, middle) ∧ (second a).run middle = .ok (b, rest) := by
  rw [StateT.run_bind] at h
  obtain ⟨⟨a, middle⟩, hfirst, hsecond⟩ := Except.bind_eq_ok h
  exact ⟨a, middle, hfirst, hsecond⟩

/-- From any list that starts with `written`, the reader takes exactly that and
returns `value`. -/
def Reads (reader : Reader σ ε α) (written : List σ) (value : α) : Prop :=
  ∀ rest, reader.run (written ++ rest) = .ok (value, rest)

theorem Reads.pure (value : α) : Reads (pure value : Reader σ ε α) [] value :=
  fun _ => rfl

theorem Reads.bind {first : Reader σ ε α} {second : α → Reader σ ε β} {head tail : List σ}
    {a : α} {b : β} (hfirst : Reads first head a) (hsecond : Reads (second a) tail b) :
    Reads (first >>= second) (head ++ tail) b := by
  intro rest
  rw [StateT.run_bind, List.append_assoc, hfirst (tail ++ rest)]
  exact hsecond rest

theorem Reads.conclude {first : Reader σ ε α} {second : α → Reader σ ε β} {written : List σ}
    {a : α} {b : β} (hfirst : Reads first written a) (hsecond : Reads (second a) [] b) :
    Reads (first >>= second) written b := by
  have hall := hfirst.bind hsecond
  rw [List.append_nil] at hall
  exact hall

theorem Reads.result {reader : Reader σ ε α} {written : List σ} {a : α}
    (h : Reads reader written a) (f : α → β) :
    Reads (reader >>= fun read => Pure.pure (f read)) written (f a) :=
  h.conclude (Reads.pure (f a))

theorem Reads.fails {first : Reader σ ε α} {second : α → Reader σ ε β} {head tail : List σ}
    {a : α} {error : ε} (hfirst : Reads first head a)
    (hsecond : (second a).run tail = .error error) :
    (first >>= second).run (head ++ tail) = .error error := by
  rw [StateT.run_bind, hfirst tail]
  exact hsecond

def repeated (reader : Reader σ ε α) : Nat → Reader σ ε (List α)
  | 0 => Pure.pure []
  | count + 1 => do
      let first ← reader
      let others ← repeated reader count
      Pure.pure (first :: others)

def writeEach (write : α → Except ε (List σ)) : List α → Except ε (List σ)
  | [] => Pure.pure []
  | value :: rest => do
      let first ← write value
      let others ← writeEach write rest
      Pure.pure (first ++ others)

theorem Reads.repeated {reader : Reader σ ε α} {write : α → Except ε (List σ)}
    (h : ∀ value written, write value = .ok written → Reads reader written value)
    {values : List α} {written : List σ} (hwritten : writeEach write values = .ok written) :
    Reads (Reading.repeated reader values.length) written values := by
  induction values generalizing written with
  | nil =>
    cases Except.ok.inj hwritten
    exact Reads.pure []
  | cons value rest ih =>
    obtain ⟨first, hfirst, hothers⟩ := Except.bind_eq_ok hwritten
    obtain ⟨others, hrest, hall⟩ := Except.bind_eq_ok hothers
    cases Except.ok.inj hall
    exact (h value first hfirst).bind ((ih hrest).result (value :: ·))

/-! ### The only spelling -/

/-- What is read, from no more than `limit`, is what the writer puts down for it. -/
def Canonical (reader : Reader σ ε α) (write : α → Except ε (List σ)) (limit : Nat) : Prop :=
  ∀ list value rest, list.length ≤ limit → reader.run list = .ok (value, rest) →
    ∃ written, write value = .ok written ∧ list = written ++ rest

theorem repeated_length {reader : Reader σ ε α} {count : Nat} {list rest : List σ}
    {values : List α} (h : (repeated reader count).run list = .ok (values, rest)) :
    values.length = count := by
  induction count generalizing list values with
  | zero =>
    cases Except.ok.inj h
    rfl
  | succ count ih =>
    obtain ⟨first, middle, _, h⟩ := Reader.run_bind_ok h
    obtain ⟨others, last, hothers, h⟩ := Reader.run_bind_ok h
    cases Except.ok.inj h
    rw [List.length_cons, ih hothers]

theorem Canonical.repeated {reader : Reader σ ε α} {write : α → Except ε (List σ)} {limit : Nat}
    (h : Canonical reader write limit) (count : Nat) :
    Canonical (Reading.repeated reader count) (writeEach write) limit := by
  induction count with
  | zero =>
    intro list values rest _ hread
    cases Except.ok.inj hread
    exact ⟨[], rfl, rfl⟩
  | succ count ih =>
    intro list values rest hlimit hread
    obtain ⟨first, middle, hfirst, hread⟩ := Reader.run_bind_ok hread
    obtain ⟨others, last, hothers, hread⟩ := Reader.run_bind_ok hread
    cases Except.ok.inj hread
    obtain ⟨head, hhead, rfl⟩ := h list first middle hlimit hfirst
    have hshorter : middle.length ≤ limit := by
      rw [List.length_append] at hlimit
      omega
    obtain ⟨tail, htail, rfl⟩ := ih middle others rest hshorter hothers
    refine ⟨head ++ tail, ?_, (List.append_assoc head tail rest).symm⟩
    simp only [writeEach, hhead, htail]
    rfl

/-! ### Cut and extended input -/

/-- The reader does not look past what it takes: what follows is left as it is. -/
def Steady (reader : Reader σ ε α) : Prop :=
  ∀ list value rest, reader.run list = .ok (value, rest) →
    ∀ more, reader.run (list ++ more) = .ok (value, rest ++ more)

theorem Steady.pure (value : α) : Steady (Pure.pure value : Reader σ ε α) := by
  intro list result rest h more
  cases Except.ok.inj h
  rfl

theorem Steady.fail (error : ε) : Steady (throw error : Reader σ ε α) := by
  intro list result rest h more
  contradiction

theorem Steady.bind {first : Reader σ ε α} {second : α → Reader σ ε β} (hfirst : Steady first)
    (hsecond : ∀ a, Steady (second a)) : Steady (first >>= second) := by
  intro list b rest h more
  obtain ⟨a, middle, ha, hb⟩ := Reader.run_bind_ok h
  rw [StateT.run_bind, hfirst list a middle ha more]
  exact hsecond a middle b rest hb more

theorem Steady.result {reader : Reader σ ε α} (h : Steady reader) (f : α → β) :
    Steady (reader >>= fun read => Pure.pure (f read)) :=
  h.bind fun read => Steady.pure (f read)

theorem Steady.repeated {reader : Reader σ ε α} (h : Steady reader) (count : Nat) :
    Steady (Reading.repeated reader count) := by
  induction count with
  | zero => exact Steady.pure []
  | succ count ih => exact h.bind fun first => ih.bind fun others => Steady.pure _

/-- No proper prefix of what was written is read to its end. -/
theorem Steady.whole {reader : Reader σ ε α} {written cut : List σ} {value other : α}
    (h : Steady reader) (hreads : Reads reader written value) (hcut : cut <+: written)
    (hread : reader.run cut = .ok (other, [])) : cut = written := by
  obtain ⟨more, rfl⟩ := hcut
  have hall := hreads []
  rw [List.append_nil, h cut other [] hread more, List.nil_append] at hall
  have hmore : more = [] := congrArg Prod.snd (Except.ok.inj hall)
  rw [hmore, List.append_nil]

end Reading
