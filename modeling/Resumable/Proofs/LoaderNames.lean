import Resumable.Proofs.TextRoundTrip

/-! Loaders asked for one after another. Each URL has one, with a name that no other URL has, so a name in the
text of a payload stands for its URL. -/
namespace Resumable.Payload.Recorder
open List
variable {recorder : Recorder} {used : String → Prop} {url : String}

def loadersOf (recorder : Recorder) : List String → List String × Recorder
  | [] => ([], recorder)
  | url :: rest =>
    let (name, next) := recorder.loaderOf url
    let (names, last) := next.loadersOf rest
    (name :: names, last)

lemma urls_loaderOf (recorder : Recorder) (url : String) : (recorder.loaderOf url).2.loaders.map Loader.url =
      if url ∈ recorder.loaders.map Loader.url then recorder.loaders.map Loader.url
      else recorder.loaders.map Loader.url ++ [url] := by
  simp only [loaderOf]
  split
  · rename_i loader found
    have same : loader.url = url := by simpa using find?_some found
    rw [if_pos (mem_map.2 ⟨loader,mem_of_find?_eq_some found,same⟩)]
  · rename_i missing
    rw [if_neg,map_append]
    · rfl
    · intro listed
      obtain ⟨loader,member,same⟩ := mem_map.1 listed
      simpa [same] using find?_eq_none.1 missing loader member

/-- The URLs that have a loader, each where it was first asked for. -/
lemma urls_loadersOf (recorder : Recorder) (urls : List String) : (recorder.loadersOf urls).2.loaders.map Loader.url =
      recorder.loaders.map Loader.url ++ (urls.removeAll (recorder.loaders.map Loader.url)).eraseDups := by
  induction urls generalizing recorder with
  | nil => simp [loadersOf,removeAll]
  | cons url rest ih =>
    simp only [loadersOf,ih,urls_loaderOf]
    generalize recorder.loaders.map Loader.url = known
    by_cases listed : url ∈ known
    · simp [removeAll,listed]
    · simp [removeAll,listed,eraseDups_cons,Bool.and_comm]
      rfl

lemma loadersOf_spec (recorder : Recorder) (apart : Digest.TellsApart used) {urls : List String}
    (distinct : Distinct recorder.loaders) (known : ∀ loader ∈ recorder.loaders, used loader.url)
    (here : ∀ url ∈ urls, used url) :
    recorder.loaders ⊆ (recorder.loadersOf urls).2.loaders ∧ Distinct (recorder.loadersOf urls).2.loaders ∧
      urls.Forall₂ (fun url name => ⟨name,url⟩ ∈ (recorder.loadersOf urls).2.loaders) (recorder.loadersOf urls).1 := by
  induction urls generalizing recorder with
  | nil => exact ⟨Subset.refl _,distinct,.nil⟩
  | cons url rest ih =>
    obtain ⟨own,others⟩ := forall_mem_cons.1 here
    obtain ⟨more,grown,offered,distinct,fresh⟩ := loaderOf_spec distinct apart known own
    have loaders : (recorder.loaderOf url).2.loaders = recorder.loaders ++ more := by rw [grown]
    rw [← loaders] at distinct offered
    have all : ∀ loader ∈ (recorder.loaderOf url).2.loaders, used loader.url := by
      intro loader listed
      rw [loaders] at listed
      rcases mem_append.1 listed with old | new
      · exact known loader old
      · exact fresh loader new ▸ own
    obtain ⟨kept,apart,names⟩ := ih _ distinct all others
    refine ⟨fun loader listed => kept ?_,apart,.cons (kept offered) names⟩
    rw [loaders]
    exact mem_append_left _ listed

/-- Whatever URLs loaders are asked for: the same URL gets the same name and different ones get different
names, each some of the 64 digits of its own digest; there is one loader for each URL, where it was first
asked for; and a payload with these loaders is read so that each name gives its URL. -/
theorem loader_names_identify_urls (graph : Graph) (urls : List String)
    (apart : Digest.TellsApart (· ∈ urls)) :
    let run := loadersOf { graph } urls
    run.1.length = urls.length ∧
      (∀ asked ∈ urls.zip run.1, ∀ other ∈ urls.zip run.1, asked.1 = other.1 ↔ asked.2 = other.2) ∧
      (∀ asked ∈ urls.zip run.1, (Digest.hexOfText asked.1).toList.length = 64 ∧
        ∃ size, 8 ≤ size ∧ size ≤ 64 ∧ asked.2 = loaderName asked.1 size) ∧
      run.2.loaders.map Loader.url = urls.eraseDups ∧
      ∀ recorder : Recorder, recorder.loaders = run.2.loaders →
        (∀ entry ∈ recorder.written.entries, entry.Legible recorder.written.source) →
        ∃ parsed, Payload.ofText recorder.written.text = .ok parsed ∧
          parsed.loaders.map Prod.snd = urls.eraseDups ∧
          ∀ asked ∈ urls.zip run.1, Keyed.get? asked.2 parsed.loaders = some asked.1 := by
  intro run
  obtain ⟨-,distinct,answers⟩ := loadersOf_spec { graph } apart distinct_nil (by simp)
    fun url listed => listed
  have listed : ∀ asked ∈ urls.zip run.1, ⟨asked.2,asked.1⟩ ∈ run.2.loaders := fun asked member =>
    List.forall₂_iff_zip.1 answers |>.2 member
  have once : run.2.loaders.map Loader.url = urls.eraseDups := by
    simpa [List.removeAll] using urls_loadersOf { graph } urls
  refine ⟨answers.length_eq.symm,?_,?_,once,?_⟩
  · intro asked member other otherMember
    constructor
    · intro same
      exact congrArg Loader.name
        (List.inj_on_of_nodup_map distinct.urls (listed _ member) (listed _ otherMember) same)
    · intro same
      exact congrArg Loader.url
        (List.inj_on_of_nodup_map distinct.names (listed _ member) (listed _ otherMember) same)
  · intro asked member
    obtain ⟨n,small,named⟩ := mem_loaderNames.1 (distinct.named _ (listed _ member))
    exact ⟨Digest.length_hexOfText _,8 + 4 * n,by omega,by omega,named⟩
  · intro recorder same legible
    refine ⟨_,ofText_text_of_legible (same ▸ distinct) legible,?_,fun asked member => ?_⟩
    · rw [parsed,same,← once,List.map_map]
      rfl
    · exact Recorder.get?_declared (same ▸ distinct.names) (same ▸ listed asked member)

theorem twoModules_told_apart :
    let urls := ["a.js","b.js","a.js"]
    let run := loadersOf { graph := {} } urls
    Digest.TellsApart (· ∈ urls) ∧ run.2.loaders.map Loader.url = ["a.js","b.js"] ∧
      ∃ parsed, Payload.ofText (written { graph := {}, loaders := run.2.loaders }).text = .ok parsed ∧
        ∀ asked ∈ urls.zip run.1, Keyed.get? asked.2 parsed.loaders = some asked.1 := by
  intro urls run
  have all : ∀ a ∈ urls, ∀ b ∈ urls, Digest.hexOfText a = Digest.hexOfText b → a = b := by decide +kernel
  have apart : Digest.TellsApart (· ∈ urls) := fun inA inB same => all _ inA _ inB same
  obtain ⟨-,-,-,once,read⟩ := loader_names_identify_urls {} urls apart
  obtain ⟨parsed,reads,-,names⟩ := read { graph := {}, loaders := run.2.loaders } rfl nofun
  exact ⟨apart,once,parsed,reads,names⟩

end Resumable.Payload.Recorder
