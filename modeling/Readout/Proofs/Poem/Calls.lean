import Readout.Proofs.Draw.Samples
import Readout.Proofs.Poem.PairedPoem
import Readout.Proofs.Table.Ranking

/-!
# All ways to a poem

A poem is read off a drawn sample, off a given outcome or off a place in a ranking. The three are one:
the poem of an outcome with the count that the table has for it (`poemAt`), since a sample and an
entry of a ranking carry just that count. So each of them succeeds wherever it can
(`poemOfKey_eq_ok`), and only a draw takes a word. In a run of calls on one stream each call answers
as it would alone at the words that the draws before it have left (`getElem?_answers`).
-/

namespace Readout

theorem Arithmetic.share_eq_div (α : Type) [Arithmetic α] (count : Nat) {total : Nat}
    (h : 0 < total) : share α count total = ofNat count / ofNat total := if_neg (Nat.ne_of_gt h)

namespace DistributionTable

variable {t : DistributionTable} {key : Bitstring}

theorem count_eq_zero_of_not_mem (h : ∀ e ∈ t.entries, e.1 ≠ key) : t.count key = 0 := by
  have hnone : t.counts.get? key = none := OrderedMap.get?_eq_none_iff.mpr h
  rw [count_eq_getD, OrderedMap.getD, hnone]
  rfl

variable (α : Type) [Arithmetic α]

/-- A sample is an entry of the table. -/
theorem mem_entries_sample (t : DistributionTable) (s : WordStream) :
    ((t.sample α s).1.key, (t.sample α s).1.count) ∈ t.entries := by
  obtain ⟨i, key, -, hentry, -, hdraw⟩ := t.exists_drawn_entry α s
  rw [t.sample_eq α s, hdraw]
  exact List.mem_of_getElem? hentry

end DistributionTable

namespace PoemGenerator

variable {g : PoemGenerator} {key : Bitstring} {n : Nat} {s : WordStream}

/-- The poem that an outcome of the right width reads as. -/
def poemAt (g : PoemGenerator) (key : Bitstring) : Poem :=
  ⟨⟨key, g.decoder.fields.map (·.find key)⟩, g.table.count key, g.table.total⟩

theorem poemOfKey_eq_ok (hwidth : g.decoder.width < maxWord)
    (hbanks : ∀ f ∈ g.decoder.fields, f.bank.size ≤ maxWord)
    (hkey : key.width = g.decoder.width) : g.poemOfKey key = .ok (g.poemAt key) := by
  unfold poemOfKey poemOfSample
  rw [Decoder.decode_eq_ok hwidth hbanks hkey]
  rfl

theorem poemOfKey_eq_error (hkey : key.width ≠ g.decoder.width) :
    g.poemOfKey key = .error (.widthMismatch g.decoder.width key.width) := by
  unfold poemOfKey poemOfSample
  rw [Decoder.decode_eq_error hkey]

theorem width_of_mem_entries {e : Bitstring × Nat} (h : e ∈ g.table.entries) :
    e.1.width = g.decoder.width := by
  rw [DistributionTable.width_eq_of_mem h, g.width_eq]

section Draw

variable (α : Type) [Arithmetic α]

/-- A draw reads the outcome of a sample and takes the sample's word. -/
theorem draw_eq_poemOfKey (g : PoemGenerator) (s : WordStream) :
    g.draw α s = (g.poemOfKey (g.table.sample α s).1.key, (g.table.sample α s).2) := by
  have hcount := DistributionTable.count_eq_of_mem (g.table.mem_entries_sample α s)
  rw [g.draw_eq α s, poemOfKey, hcount]
  rfl

end Draw

theorem ranking_eq_ok (hwidth : g.decoder.width < maxWord)
    (hbanks : ∀ f ∈ g.decoder.fields, f.bank.size ≤ maxWord) (n : Nat) :
    g.ranking n = .ok ((g.table.ranking n).map fun e => (e, g.poemAt e.key)) := by
  refine mapM_eq_ok fun e he => ?_
  have hkey := width_of_mem_entries (DistributionTable.of_mem_ranking he).1
  rw [poemOfKey_eq_ok hwidth hbanks hkey]
  rfl

/-! ## Calls on one stream -/

/-- What a generator is asked for. -/
inductive Call
  | draw
  | poemOf (key : Bitstring)
  | ranking (n : Nat)
  deriving DecidableEq

/-- What it gives. -/
inductive Answer
  | poem (result : Except Error Poem)
  | ranked (result : Except Error (List (RankedEntry × Poem)))

variable (α : Type) [Arithmetic α]

/-- The answer to a call, with the words that are left. -/
def answer (g : PoemGenerator) (s : WordStream) : Call → Answer × WordStream
  | .draw => (.poem (g.draw α s).1, (g.draw α s).2)
  | .poemOf key => (.poem (g.poemOfKey key), s)
  | .ranking n => (.ranked (g.ranking n), s)

/-- The answers to calls one after the other, each at the words that the one before it left. -/
def answers (g : PoemGenerator) : List Call → WordStream → List Answer × WordStream
  | [], s => ([], s)
  | call :: calls, s =>
    let (first, rest) := g.answer α s call
    let (others, rest) := g.answers calls rest
    (first :: others, rest)

theorem answers_cons (call : Call) (calls : List Call) (s : WordStream) :
    g.answers α (call :: calls) s =
      ((g.answer α s call).1 :: (g.answers α calls (g.answer α s call).2).1,
        (g.answers α calls (g.answer α s call).2).2) := rfl

/-- A call takes a word exactly if it is a draw. -/
theorem snd_answer (call : Call) (s : WordStream) :
    (g.answer α s call).2 = s.drop ([call].count .draw) := by
  cases call with
  | draw =>
    show (g.draw α s).2 = s.drop 1
    rw [g.draw_eq α s, DistributionTable.snd_sample]
  | poemOf key => rfl
  | ranking n => rfl

theorem snd_answers (calls : List Call) (s : WordStream) :
    (g.answers α calls s).2 = s.drop (calls.count .draw) := by
  induction calls generalizing s with
  | nil => rfl
  | cons call calls ih =>
    rw [answers_cons, ih, snd_answer, WordStream.drop_drop, ← List.count_append]
    rfl

theorem length_answers (calls : List Call) (s : WordStream) :
    (g.answers α calls s).1.length = calls.length := by
  induction calls generalizing s with
  | nil => rfl
  | cons call calls ih => rw [answers_cons, List.length_cons, List.length_cons, ih]

/-- A call in a run answers as it would alone behind the draws before it. -/
theorem getElem?_answers {calls : List Call} {i : Nat} {call : Call} (h : calls[i]? = some call)
    (s : WordStream) :
    (g.answers α calls s).1[i]? =
      some (g.answer α (s.drop ((calls.take i).count .draw)) call).1 := by
  induction calls generalizing i s with
  | nil => cases h
  | cons first calls ih =>
    rw [answers_cons]
    cases i with
    | zero =>
      obtain rfl := Option.some.inj h
      rfl
    | succ i =>
      rw [List.getElem?_cons_succ, ih h, snd_answer, WordStream.drop_drop, ← List.count_append]
      rfl

/-- **All ways to a poem agree.** A draw succeeds, takes the words of a sample and gives the poem of
the sampled outcome, which was recorded. An outcome has a poem exactly if it is as wide as the
decoder, with its recorded count, which is zero where it was never recorded. A ranking of poems is
that of the table, each with the poem, the count and the share of its outcome. In a run of calls each
answers as it would alone, where the stream stands after as many samples as draws came before. -/
theorem poem_paths_agree (g : PoemGenerator) (hwidth : g.decoder.width < maxWord)
    (hbanks : ∀ f ∈ g.decoder.fields, f.bank.size ≤ maxWord) :
    (∀ s, ∃ p, g.draw α s = (.ok p, (g.table.sample α s).2) ∧
      g.poemOfKey (g.table.sample α s).1.key = .ok p ∧ 0 < p.count) ∧
    (∀ key, ((∃ p, g.poemOfKey key = .ok p) ↔ key.width = g.decoder.width) ∧
      ∀ p, g.poemOfKey key = .ok p → p.key = key ∧ p.count = g.table.count key ∧
        ((∀ e ∈ g.table.entries, e.1 ≠ key) → p.count = 0)) ∧
    (∀ n, ∃ l, g.ranking n = .ok l ∧ l.map (·.1) = g.table.ranking n ∧
      ∀ e ∈ l, g.poemOfKey e.1.key = .ok e.2 ∧ e.2.count = e.1.count ∧
        e.2.probability α = e.1.probability α ∧
        e.2.probability α = g.table.probability α e.1.key) ∧
    ∀ calls s, (g.answers α calls s).2 = (g.table.samples α (calls.count .draw) s).2 ∧
      (g.answers α calls s).1.length = calls.length ∧
      ∀ (i : Nat) call, calls[i]? = some call → (g.answers α calls s).1[i]? =
        some (g.answer α (g.table.samples α ((calls.take i).count .draw) s).2 call).1 := by
  refine ⟨fun s => ?_, fun key => ⟨⟨?_, fun hkey => ?_⟩, fun p hp => ?_⟩, fun n => ?_,
    fun calls s => ⟨?_, length_answers α calls s, fun i call h => ?_⟩⟩
  · have hpoem := poemOfKey_eq_ok hwidth hbanks
      (width_of_mem_entries (g.table.mem_entries_sample α s))
    refine ⟨_, ?_, hpoem, DistributionTable.count_pos_of_sample α⟩
    rw [draw_eq_poemOfKey, hpoem]
  · rintro ⟨p, hp⟩
    by_contra hkey
    rw [poemOfKey_eq_error hkey] at hp
    cases hp
  · exact ⟨_, poemOfKey_eq_ok hwidth hbanks hkey⟩
  · have hsame := sample_of_poemOfSample hp
    have hcount : p.count = g.table.count key := congrArg Sample.count hsame
    refine ⟨congrArg Sample.key hsame, hcount, fun h => ?_⟩
    rw [hcount, DistributionTable.count_eq_zero_of_not_mem h]
  · refine ⟨_, ranking_eq_ok hwidth hbanks n, ?_, fun e he => ?_⟩
    · rw [List.map_map]
      exact List.map_id _
    · obtain ⟨entry, hentry, rfl⟩ := List.mem_map.mp he
      obtain ⟨hmem, htotal⟩ := DistributionTable.of_mem_ranking hentry
      have hcount : (g.poemAt entry.key).count = entry.count :=
        DistributionTable.count_eq_of_mem hmem
      refine ⟨poemOfKey_eq_ok hwidth hbanks (width_of_mem_entries hmem), hcount, ?_, ?_⟩
      · show Arithmetic.share α (g.poemAt entry.key).count g.table.total =
          Arithmetic.share α entry.count entry.total
        rw [hcount, htotal]
      · exact Arithmetic.share_eq_div α _ g.table.total_pos
  · rw [snd_answers, DistributionTable.snd_samples]
  · rw [getElem?_answers α h, DistributionTable.snd_samples]

/-- The one recorded outcome is drawn, ranked first and read as the same poem; another outcome has a
poem of count zero, and asking for it takes no word. -/
theorem seasons_poems_agree :
    seasons.decoder.width < maxWord ∧ (∀ f ∈ seasons.decoder.fields, f.bank.size ≤ maxWord) ∧
      (∃ p, (seasons.draw Rat (.splitMix 7)).1 = .ok p ∧ 0 < p.count) ∧
      (∃ p, seasons.poemOfKey ⟨[true, true, true, true], by decide⟩ = .ok p ∧ p.count = 0) ∧
      (∃ l, seasons.ranking 3 = .ok l ∧ l.length = 1) ∧
      (seasons.answers Rat [.draw, .poemOf ⟨[true, true, true, true], by decide⟩, .draw]
        (.splitMix 7)).2 = (seasons.table.samples Rat 2 (.splitMix 7)).2 := by
  have hwidth : seasons.decoder.width < maxWord := by decide
  have hbanks : ∀ f ∈ seasons.decoder.fields, f.bank.size ≤ maxWord := by decide
  obtain ⟨hdraw, hread, hranking, hrun⟩ := poem_paths_agree Rat seasons hwidth hbanks
  obtain ⟨p, hp, -, hpos⟩ := hdraw (.splitMix 7)
  obtain ⟨hexists, hcounts⟩ := hread ⟨[true, true, true, true], by decide⟩
  obtain ⟨q, hq⟩ := hexists.mpr rfl
  obtain ⟨l, hl, hmap, -⟩ := hranking 3
  have hlength : l.length = 1 := by
    have hsame := congrArg List.length hmap
    rwa [List.length_map, DistributionTable.length_ranking] at hsame
  exact ⟨hwidth, hbanks, ⟨p, congrArg Prod.fst hp, hpos⟩,
    ⟨q, hq, (hcounts q hq).2.2 (by decide)⟩, ⟨l, hl, hlength⟩, (hrun _ _).1⟩

end PoemGenerator

end Readout
