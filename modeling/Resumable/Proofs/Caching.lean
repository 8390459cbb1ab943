import Resumable.Batch
import Resumable.Proofs.FileChanges
import Resumable.Proofs.JsonText

/-! The cache. It keeps results by a digest of source and options, so a run gives what it would give
without the cache, whatever was compiled before. -/
namespace Resumable
open Json Option Text

lemma ClosureSummary.restores : Restores toJson ofJson? := by
  intro info got read
  have fields : allFields? fieldNames info.toJson = some
      [some (.string info.exportName),some (ofOption .string info.name),
       some (.string info.kind),some (strings info.params),
       some (strings info.imports),some (.boolean info.hoisted),
       some (ofNat info.line),some (ofNat info.column)] := rfl
  simp only [ofJson?,fields,bind_eq_bind,bind_eq_some_iff] at read
  obtain ⟨_,exportName,_,name,_,kind,_,params,_,imports,_,hoisted,_,line,_,column, eq⟩ := read
  rw [← some.inj eq,restores_string exportName,restores_ofOption_string name,
    restores_string kind,restores_array restores_string params,
    restores_array restores_string imports,restores_boolean hoisted,
    restores_ofNat _ line,restores_ofNat _ column]

lemma Compiled.restores : Restores toJson ofJson? := by
  intro compiled got read
  have fields : allFields? ["code","map","closures"] compiled.toJson = some
      [some (.string compiled.code),some (ofOption .string compiled.map),
       some (.array (compiled.closures.map ClosureSummary.toJson))] := rfl
  simp only [ofJson?,fields,bind_eq_bind,bind_eq_some_iff] at read
  obtain ⟨_,code,_,map,_,closures,eq⟩ := read
  rw [← some.inj eq,restores_string code,restores_ofOption_string map,
    restores_array ClosureSummary.restores (bind_eq_some_iff.2 closures)]

lemma ClosureSummary.legible (info : ClosureSummary) : Legible info.toJson := by
  refine .object ?_
  simp only [List.forall_mem_cons]
  exact ⟨.string,legible_ofOption (fun _ => .string) _,.string,legible_strings _,
    legible_strings _,.boolean,legible_ofNat _,legible_ofNat _,List.forall_mem_nil _⟩

lemma Compiled.legible (compiled : Compiled) : Legible compiled.toJson := by
  have closures : ∀ json ∈ compiled.closures.map ClosureSummary.toJson, Legible json :=
    List.forall_mem_map.2 fun info _ => info.legible
  refine .object ?_
  simp only [List.forall_mem_cons]
  exact ⟨.string,legible_ofOption (fun _ => .string) _,.array closures,List.forall_mem_nil _⟩

namespace Cache

lemma Entry.legible (entry : Entry) : Legible entry.toJson := by
  refine .object ?_
  simp only [List.forall_mem_cons]
  exact ⟨.string,entry.output.legible,List.forall_mem_nil _⟩

lemma Entry.restores : Restores toJson ofJson? := by
  intro entry got read
  have fields : allFields? ["hash","output"] entry.toJson = some
      [some (.string entry.hash),some entry.output.toJson] := rfl
  simp only [ofJson?,fields,bind_eq_bind,bind_eq_some_iff] at read
  obtain ⟨_,hash,_,output,eq⟩ := read
  rw [← some.inj eq,restores_string hash,Compiled.restores output]

lemma Entry.eq_of_read (read : (read? entry.toJson.text).bind ofJson? = some got) : got = entry := by
  rw [entry.legible.read?_text] at read
  exact restores read

end Cache

namespace Options

lemma legible (options : Options) : Legible options.toJson := by
  refine .object ?_
  simp only [List.forall_mem_cons]
  exact ⟨.string,legible_ofOption (fun _ => .string) _,.boolean,.boolean,List.forall_mem_nil _⟩

lemma ofJson?_toJson (options : Options) : ofJson? options.toJson = some options := by
  rcases options with ⟨filename,select | select,preamble,sourceMap⟩ <;> rfl

lemma text_injective : Function.Injective text := by
  intro options other equal
  apply some.inj
  rw [← ofJson?_toJson options,options.legible.text_injective other.legible equal,ofJson?_toJson]

lemma zero_not_mem_text (options : Options) : '\x00' ∉ options.text.toList := by
  have quoted (text : String) : '\x00' ∉ (jsonQuoted text).toList := by
    have char (c : Char) : '\x00' ∉ jsonChar c := by
      by_cases control : c.toNat < 0x20
      · have low : ∀ n < 0x20, '\x00' ∉ jsonChar (Char.ofNat n) := by decide
        simpa using low c.toNat control
      · have other : '\x00' ≠ c := by rintro rfl; exact control (by decide)
        simp only [jsonChar,control,if_false]
        split_ifs <;> simp [other]
    simp [jsonQuoted,char]
  have option (value : Option String) : '\x00' ∉ (ofOption .string value).text.toList := by
    cases value with
    | none => decide
    | some value => exact quoted value
  rcases options with ⟨filename,select,preamble,sourceMap⟩
  cases preamble <;> cases sourceMap <;> simp [text,toJson,Json.text,fieldsText,quoted,option]

end Options

namespace Cache

variable {mark : Char} {output : Compiled}

lemma keyBytes_eq (source : String) (options : Options) :
    keyBytes source options = (source ++ "\x00" ++ options.text).toByteArray.data.toList := by
  have zero : "\x00".toByteArray.data.toList = [0] := by decide
  simp [keyBytes,toList_bytes,String.toByteArray_append,ByteArray.data_append,zero]

lemma append_cons_inj (inB : mark ∉ b) (inD : mark ∉ d) (equal : a ++ mark :: b = c ++ mark :: d) : a = c ∧ b = d := by
  have none {b c d : List Char} (inB : mark ∉ b) (ends : mark :: b = c ++ mark :: d) : c = [] := by
    cases c with
    | nil => rfl
    | cons first rest =>
      rw [(List.cons.inj ends).2] at inB
      simp at inB
  rcases List.append_eq_append_iff.1 equal with ⟨e,rfl,ends⟩ | ⟨e,rfl,ends⟩
  · obtain rfl := none inB ends
    simpa using ends
  · obtain rfl := none inD ends
    simpa [eq_comm] using ends

/-- The bytes of a key tell the source and the options: the last zero stands between them. -/
lemma keyBytes_injective (equal : keyBytes source options = keyBytes other others) :
    source = other ∧ options = others := by
  rw [keyBytes_eq,keyBytes_eq,Array.toList_inj] at equal
  have chars := congrArg String.toList (String.toByteArray_inj.1 (ByteArray.ext equal))
  simp only [String.toList_append,List.append_assoc] at chars
  obtain ⟨sources,texts⟩ := append_cons_inj options.zero_not_mem_text others.zero_not_mem_text chars
  exact ⟨String.toList_inj.1 sources,Options.text_injective (String.toList_inj.1 texts)⟩

/-- A digest is taken of bytes that only one source and its options have. -/
theorem key_tells_inputs (source other : String) (options others : Options) :
    keyBytes source options = keyBytes other others ↔ source = other ∧ options = others := by
  refine ⟨keyBytes_injective, ?_⟩
  rintro ⟨rfl, rfl⟩
  rfl

/-! ### Runs that share a cache -/

/-- The source and the options that a run on a file compiles; none if the file is not a text. -/
def inputs (options : Options) (path : String) (files : Files) : List (String × Options) :=
  (files.text? path).toList.map fun source => (source, { options with filename := path })

/-- Files after runs that share the cache in a folder, and what the runs compiled. Between the runs
files may change in any way that writes nothing to the cache. -/
inductive Shared (folder : String) : List (String × Options) → Files → Prop where
  | empty : (∀ path, files.text? (entryPath folder path) = none) → Shared folder [] files
  | change : Shared folder log files → (∀ path text, after.text? (entryPath folder path) = some text →
        files.text? (entryPath folder path) = some text) → Shared folder log after
  | run (options : Options) (path : String) : Shared folder log files →
      Shared folder (inputs options path files ++ log) (FileResult.ofPath (some folder) options path files).2

/-- Two inputs that a digest does not tell apart though their keys differ. -/
def Collide (used now : String × Options) : Prop :=
  digest used.1 used.2 = digest now.1 now.2 ∧ keyBytes used.1 used.2 ≠ keyBytes now.1 now.2

def entryText (source : String) (options : Options) (output : Compiled) : String :=
  Json.text (Entry.toJson { hash := digest source options, output })

variable {folder path source text : String} {options : Options} {files after : Files} {log : List (String × Options)}

def Kept (log : List (String × Options)) (text : String) : Prop :=
  ∃ used ∈ log, ∃ output, compile used.1 used.2 = .ok output ∧ text = entryText used.1 used.2 output

lemma Kept.mono (kept : Kept log text) (within : log ⊆ more) : Kept more text := by
  obtain ⟨used,mem,is⟩ := kept
  exact ⟨used,within mem,is⟩

lemma get_writes (folder path source : String) (options : Options) (files : Files) :
    files.Writes (fun _ => False) (get folder path source options files).2 := by
  simp only [get]
  split
  · exact .refl
  split
  · exact files.writes_remove _
  · exact .refl

lemma of_get (got : (get folder path source options files).1 = some output) :
    ∃ text entry, files.text? (entryPath folder path) = some text ∧
      (read? text).bind Entry.ofJson? = some entry ∧ entry.hash = digest source options ∧
      entry.output = output := by
  simp only [get] at got
  split at got
  · contradiction
  next text reads =>
    split at got
    · contradiction
    next entry read =>
      split at got
      · next hash => exact ⟨text, entry,reads,read,by simpa using hash,some.inj got⟩
      · contradiction

lemma set_writes (folder path source : String) (options : Options) (output : Compiled) (files : Files) :
    files.Writes (· = (entryText source options output).toUTF8.toList)
      (set folder path source options output files) := by
  rw [set,entryText]
  cases wrote : files.write? (entryPath folder path)
      (Entry.toJson { hash := digest source options, output }).text.toUTF8.toList with
  | none => exact .refl
  | some after => exact Files.writes_write? wrote

lemma ofSource_writes (folder path source : String) (options : Options) (files : Files) : files.Writes
      (fun bytes => ∃ text, Kept [(source, { options with filename := path })] text ∧ bytes = text.toUTF8.toList)
      (FileResult.ofSource (some folder) options path source files).2 := by
  have first := get_writes folder path source { options with filename := path } files
  simp only [FileResult.ofSource]
  split
  · exact first.mono (by simp)
  split
  · next output eq =>
    refine first.trans (set_writes _ _ _ _ _ _) ?_
    rintro bytes (no | rfl)
    · contradiction
    · exact ⟨_,⟨_,List.mem_singleton_self _,output,eq,rfl⟩,rfl⟩
  · exact first.mono (by simp)

lemma Shared.kept (shared : Shared folder log files)
    (reads : files.text? (entryPath folder path) = some text) : Kept log text := by
  induction shared generalizing path text with
  | empty none => rw [none] at reads; contradiction
  | change _ unwritten ih => exact ih (unwritten _ _ reads)
  | @run log files options source _ ih =>
    rw [FileResult.ofPath] at reads
    rw [inputs]
    cases read : files.text? source with
    | none => rw [read] at reads; exact ih reads
    | some content =>
      rw [read] at reads
      rcases (ofSource_writes _ _ _ _ _).text?_eq reads with old | ⟨_,⟨entry,kept,rfl⟩,eq⟩
      · exact (ih old).mono (List.subset_append_right _ _)
      · rw [fromUTF8?_toUTF8] at eq
        obtain rfl := some.inj eq
        exact kept.mono (by simp)

lemma Shared.of_get (shared : Shared folder log files) (apart : ∀ used ∈ log, ¬Collide used (source, options))
    (got : (get folder path source options files).1 = some output) :
    (source, options) ∈ log ∧ compile source options = .ok output := by
  obtain ⟨text, entry,reads,read,hash,rfl⟩ := Cache.of_get got
  obtain ⟨used,mem,output,compiled,rfl⟩ := shared.kept reads
  obtain rfl := Entry.eq_of_read read
  obtain ⟨rfl,rfl⟩ : used.1 = source ∧ used.2 = options :=
    keyBytes_injective (by by_contra differ; exact apart used mem ⟨hash,differ⟩)
  exact ⟨mem,compiled⟩

/-- The cache changes no result: a run gives what a run without a cache gives, and a result is taken
from the cache only for a source and options that were compiled before. -/
theorem cached_result_eq_fresh (shared : Shared folder log files) (options : Options) (path : String)
    (apart : ∀ used ∈ log, ∀ now ∈ inputs options path files, ¬Collide used now) :
    (FileResult.ofPath (some folder) options path files).1.result =
        (FileResult.ofPath none options path files).1.result ∧
      ((FileResult.ofPath (some folder) options path files).1.cached →
        ∃ now ∈ inputs options path files, now ∈ log) := by
  cases read : files.text? path with
  | none => simp [FileResult.ofPath, read]
  | some source =>
    rw [inputs, read] at apart ⊢
    simp only [FileResult.ofPath, read, FileResult.ofSource]
    cases got : (get folder path source { options with filename := path } files).1 with
    | none => cases compile source { options with filename := path } <;> simp
    | some output =>
      obtain ⟨mem, compiled⟩ :=
        shared.of_get (fun used mem => apart used mem _ List.mem_cons_self) got
      rw [compiled]
      exact ⟨rfl, fun _ => ⟨_, List.mem_cons_self, mem⟩⟩

lemma pieces_of_not_mem {text : List Char} (no : mark ∉ text) : Path.pieces mark text = [text] := by
  induction text with
  | nil => rfl
  | cons c text ih =>
    obtain ⟨other,rest⟩ := List.ne_and_not_mem_of_not_mem_cons no
    simp [Path.pieces,ih rest,other.symm]

def sources : Files :=
  ⟨[(["cache"], .folder),(["a"], .folder),(["a","b.js"], .file "f".toUTF8.toList),
    (["a_b.js"], .file "g".toUTF8.toList)]⟩

lemma entryName_ne (path : String) (short : name.length < 5) : entryName path ≠ name := by
  rintro rfl
  simp only [entryName,String.length_append] at short
  exact absurd short (Nat.not_lt.2 (Nat.le_add_left 5 _))

lemma components_entryPath (path : String) : Path.components (entryPath "cache" path) = ["cache",entryName path] := by
  have slash : '/' ∉ (entryName path).toList := by
    simp only [entryName,String.toList_append,String.toList_ofList,List.mem_append,List.mem_map, not_or]
    refine ⟨?_,by decide⟩
    rintro ⟨c,-,eq⟩
    split at eq
    · contradiction
    · simp_all
  have empty : entryName path ≠ "" := entryName_ne path (by decide)
  have point : entryName path ≠ "." := entryName_ne path (by decide)
  have path : (entryPath "cache" path).toList = 'c' :: 'a' :: 'c' :: 'h' :: 'e' :: '/' :: (entryName path).toList := by
    simp [entryPath,Path.join]
  simp [Path.components,path,Path.pieces,pieces_of_not_mem slash,empty,point]

lemma text?_sources (path : String) : sources.text? (entryPath "cache" path) = none := by
  have up : entryName path ≠ ".." := entryName_ne path (by decide)
  simp [Files.text?,Files.bytes?,Files.locate?,components_entryPath,Files.follow, Files.content?,sources]

lemma inputs_sources : inputs {} "a_b.js" sources = [("g", { filename := "a_b.js" })] ∧
    inputs {} "a/b.js" (FileResult.ofPath (some "cache") {} "a_b.js" sources).2 =
      [("f", { filename := "a/b.js" })] := by
  have single : Path.components "a_b.js" = ["a_b.js"] := by decide
  have nested : Path.components "a/b.js" = ["a","b.js"] := by decide
  have text : sources.text? "a_b.js" = some "g" := by
    refine @Files.text?_of_locate? sources ["a_b.js"] _ _ ?_ rfl
    simp [Files.locate?,single,Files.follow,Files.content?,sources]
  obtain ⟨output,compiled⟩ : ∃ output, compile "g" { filename := "a_b.js" } = .ok output := by
    have some : (compile "g" { filename := "a_b.js" }).toOption.isSome := by decide +kernel
    cases compiled : compile "g" { filename := "a_b.js" } with
    | ok output => exact ⟨output,rfl⟩
    | error failure => rw [compiled] at some; contradiction
  have wrote (bytes : List UInt8) : sources.write? (entryPath "cache" "a_b.js") bytes =
      some (sources.put ["cache",entryName "a_b.js"] (.file bytes)) := by
    simp [Files.write?,Files.putAt,components_entryPath,Files.follow,Files.content?,sources]
  have other : (FileResult.ofPath (some "cache") {} "a_b.js" sources).2.text? "a/b.js" = some "f" := by
    simp only [FileResult.ofPath,text,FileResult.ofSource,get,text?_sources,compiled,set, wrote,getD_some]
    refine @Files.text?_of_locate? _ ["a","b.js"] _ _ ?_ rfl
    simp [Files.locate?,nested,Files.follow,Files.content?,sources,Files.put]
  exact ⟨by simp [inputs,text],by simp [inputs,other]⟩

/-- A source whose entry holds the result for another one is compiled. -/
theorem shared_entry_is_not_taken :
    entryPath "cache" "a/b.js" = entryPath "cache" "a_b.js" ∧
    (FileResult.ofPath (some "cache") {} "a/b.js"
        (FileResult.ofPath (some "cache") {} "a_b.js" sources).2).1.result =
      (FileResult.ofPath none {} "a/b.js"
        (FileResult.ofPath (some "cache") {} "a_b.js" sources).2).1.result := by
  have differ : digest "g" { filename := "a_b.js" } ≠ digest "f" { filename := "a/b.js" } := by
    simp only [digest, keyBytes, toList_bytes]
    decide +kernel
  refine ⟨by decide,
    (cached_result_eq_fresh (.run {} "a_b.js" (.empty text?_sources)) {} "a/b.js" ?_).1⟩
  rw [inputs_sources.1, inputs_sources.2]
  intro used isUsed now isNow
  obtain rfl := List.mem_singleton.1 isUsed
  obtain rfl := List.mem_singleton.1 isNow
  exact fun collide => differ collide.1

end Cache
end Resumable
