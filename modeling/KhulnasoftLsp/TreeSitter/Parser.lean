import KhulnasoftLsp.Async
import KhulnasoftLsp.DocContext
import KhulnasoftLsp.OrderedMap

/-!
# The syntax tree parser

Files are parsed for the suggestions and for what is taken out of them, often several at once. All
calls share the parsers that are loaded, one for the name of a language, and the tables of the
languages, which the browser builds anew for every call. A call waits for the library, then perhaps
for the grammar, and goes on with what the tables hold by then.

`parses_of_run`: however the calls interleave, none of them throws, a tree is that of the
text that was asked for, parsed with a grammar of the language that the file has, and a grammar is
not loaded when there is a parser for it.
-/

namespace KhulnasoftLsp.TreeSitterParser

open Async Program

inductive TreeSitterParserLoadState where
  | INIT
  | ERRORED
  | READY
  | UNIMPLEMENTED
  deriving DecidableEq, Repr

structure TreeSitterLanguageInfo where
  name : String
  extensions : List String
  editorLanguageIds : List String
  wasmPath : String
  deriving DecidableEq, Repr

structure LanguageMap where
  byExtension : OrderedMap String TreeSitterLanguageInfo
  byLanguageId : OrderedMap String TreeSitterLanguageInfo

def buildTreeSitterInfoByLangAndExtMap (languages : List TreeSitterLanguageInfo) : LanguageMap where
  byExtension := OrderedMap.empty.setAll
    (languages.flatMap fun language => language.extensions.map fun ext => (ext, language))
  byLanguageId := OrderedMap.empty.setAll
    (languages.flatMap fun language => language.editorLanguageIds.map fun id => (id, language))

/-- The library that parses, and the standard of URLs. -/
structure Library where
  Language : Type
  Tree : Type
  /-- The file at this path has this grammar in it. -/
  Holds : String → Language → Prop
  /-- `parser.setLanguage` takes it. -/
  isCompatible : Language → Bool
  /-- `parser.parse` of a parser with this language, which does not throw then. -/
  parse : Language → JsString → Tree
  /-- `new URL(relativeUrl, baseAssetsUrl).href`, which may throw -/
  resolve : String → String → Option String

inductive Platform where
  | desktop
  | browser
  deriving DecidableEq, Repr

variable (L : Library)

/-- A `Parser` with the language that was set. -/
structure Parser where
  language : L.Language

/-- What the calls share. -/
structure Shared where
  loadState : TreeSitterParserLoadState
  languages : LanguageMap
  parsers : OrderedMap String (Parser L)
  /-- `client.baseAssetsUrl` -/
  baseAssetsUrl : Option String
  /-- `new Parser()` does not throw. -/
  isConstructible : Bool

inductive Request where
  | init
  | load (wasmPath : String)

def Request.Answer : Request → Type
  | init => Except Unit Unit
  | load wasmPath => Except Unit { language : L.Language // L.Holds wasmPath language }

inductive Call where
  | setLoadState (loadState : TreeSitterParserLoadState)
  | setLanguages (languages : LanguageMap)
  | setParser (name : String) (parser : Parser L)

def signature : Signature where
  State := Shared L
  Call := Call L
  effect
    | .setLoadState loadState, s => { s with loadState }
    | .setLanguages languages, s => { s with languages }
    | .setParser name parser, s => { s with parsers := s.parsers.set name parser }
  Request := Request
  Answer := Request.Answer L
  Error := Unit

/-- What else happens to the shared state. -/
inductive Event where
  | setBaseAssetsUrl (url : Option String)
  | setConstructible (isConstructible : Bool)

def event : Event → Shared L → Option (Shared L)
  | .setBaseAssetsUrl url, s => some { s with baseAssetsUrl := url }
  | .setConstructible isConstructible, s => some { s with isConstructible }

structure TreeAndLanguage where
  tree : L.Tree
  language : L.Language
  languageInfo : TreeSitterLanguageInfo
  parser : Parser L

/-- `parseFile` and `parseContent`, with their arguments -/
inductive ParseRequest where
  | file (context : IDocContext) (suggestionText : Option JsString)
  | content (content : JsString) (language : String)

variable {L} (platform : Platform) (definitions : List TreeSitterLanguageInfo)

/-! ## The calls -/

/-- `resolveGrammarAbsoluteUrl` for all definitions -/
def resolveLanguages (baseAssetsUrl : Option String) : Option (List TreeSitterLanguageInfo) :=
  definitions.mapM fun definition =>
    (L.resolve definition.wasmPath (baseAssetsUrl.getD "")).map fun wasmPath =>
      { definition with wasmPath }

/-- `Parser.init`, with the load state that it leaves -/
def initLibrary : Program (signature L) Unit := do
  match ← ask (S := signature L) .init with
  | .ok () => perform (S := signature L) (.setLoadState .READY)
  | .error _ => perform (S := signature L) (.setLoadState .ERRORED)

def init : Program (signature L) Unit :=
  match platform with
  | .desktop => initLibrary
  | .browser => do
    let s : Shared L ← get (S := signature L)
    match resolveLanguages (L := L) definitions s.baseAssetsUrl with
    | none => throw ()
    | some languages =>
      perform (S := signature L) (.setLanguages (buildTreeSitterInfoByLangAndExtMap languages))
      initLibrary

/-- `#handleInit` -/
def handleInit : Program (signature L) Bool :=
  tryCatch (do init (L := L) platform definitions; return true) fun _ => do
    perform (S := signature L) (.setLoadState .ERRORED)
    return false

/-- What `.split('.').pop()` returns, behind a dot. -/
def extensionOf (filename : String) : String :=
  String.ofList ('.' :: ((filename.toList.splitOn '.').getLast?.getD []))

def getLanguageInfoForFile (filename : String) (languageId : Option String)
    (languages : LanguageMap) : Option TreeSitterLanguageInfo :=
  match languageId.filter (· ≠ "") with
  | some languageId => languages.byLanguageId.get languageId
  | none => languages.byExtension.get (extensionOf filename)

/-- What `getParser` tries. -/
def loadParser (languageInfo : TreeSitterLanguageInfo) :
    Program (signature L) (Option (Parser L)) := do
  let s : Shared L ← get (S := signature L)
  if !s.isConstructible then throw ()
  else
    match ← ask (S := signature L) (.load languageInfo.wasmPath) with
    | .error _ => throw ()
    | .ok language =>
      if !L.isCompatible language.1 then throw ()
      else
        perform (S := signature L) (.setParser languageInfo.name ⟨language.1⟩)
        return some ⟨language.1⟩

def getParser (languageInfo : TreeSitterLanguageInfo) :
    Program (signature L) (Option (Parser L)) := do
  let s : Shared L ← get (S := signature L)
  match s.parsers.get languageInfo.name with
  | some parser => return some parser
  | none =>
    (loadParser languageInfo).tryCatch fun _ => do
      perform (S := signature L) (.setLoadState .ERRORED)
      return none

namespace ParseRequest

def filename : ParseRequest → String
  | .file context _ => context.fileRelativePath
  | .content _ language => language

def languageId : ParseRequest → Option String
  | .file context _ => some context.languageId
  | .content _ _ => none

def text : ParseRequest → JsString
  | .file context suggestionText => context.prefixText ++ suggestionText.getD [] ++ context.suffix
  | .content text _ => text

end ParseRequest

/-- `parseFile` and `parseContent` -/
def parse (request : ParseRequest) : Program (signature L) (Option (TreeAndLanguage L)) := do
  if !(← handleInit platform definitions) then return none
  else
    let s : Shared L ← get (S := signature L)
    match getLanguageInfoForFile request.filename request.languageId s.languages with
    | none => return none
    | some languageInfo =>
      match ← getParser languageInfo with
      | none => return none
      | some parser =>
        return some ⟨L.parse parser.language request.text, parser.language, languageInfo, parser⟩

/-! ## What the calls share -/

/-- A language of the definitions; in the browser its grammar is at a resolved path. -/
def IsLanguage (info : TreeSitterLanguageInfo) : Prop :=
  match platform with
  | .desktop => info ∈ definitions
  | .browser => ∃ definition ∈ definitions, ∃ base wasmPath,
      L.resolve definition.wasmPath base = some wasmPath ∧ info = { definition with wasmPath }

/-- The parser has a grammar of the language with this name. -/
def IsParserOf (name : String) (parser : Parser L) : Prop :=
  ∃ info, IsLanguage (L := L) platform definitions info ∧ info.name = name ∧
    L.Holds info.wasmPath parser.language

structure Consistent (s : Shared L) : Prop where
  byExtension : ∀ ext info, s.languages.byExtension.get ext = some info →
    IsLanguage (L := L) platform definitions info ∧ ext ∈ info.extensions
  byLanguageId : ∀ id info, s.languages.byLanguageId.get id = some info →
    IsLanguage (L := L) platform definitions info ∧ id ∈ info.editorLanguageIds
  parsers : ∀ name parser, s.parsers.get name = some parser →
    IsParserOf platform definitions name parser

/-- The language is the one that the file has by its id, or by its extension if it has no id. -/
def Describes (request : ParseRequest) (info : TreeSitterLanguageInfo) : Prop :=
  match request.languageId.filter (· ≠ "") with
  | some languageId => languageId ∈ info.editorLanguageIds
  | none => extensionOf request.filename ∈ info.extensions

/-- The constructor: the desktop has its languages from the start. -/
def new (baseAssetsUrl : Option String) : Shared L where
  loadState := .INIT
  languages := buildTreeSitterInfoByLangAndExtMap
    (match platform with
    | .desktop => definitions
    | .browser => [])
  parsers := .empty
  baseAssetsUrl := baseAssetsUrl
  isConstructible := false

variable {platform definitions}

theorem mem_of_get_byExtension {languages : List TreeSitterLanguageInfo} {ext : String}
    {info : TreeSitterLanguageInfo}
    (h : (buildTreeSitterInfoByLangAndExtMap languages).byExtension.get ext = some info) :
    info ∈ languages ∧ ext ∈ info.extensions := by
  have hmem := OrderedMap.mem_of_get_setAll h
  obtain ⟨language, hlanguage, hmem⟩ := List.mem_flatMap.mp hmem
  obtain ⟨ext', hext, heq⟩ := List.mem_map.mp hmem
  cases heq
  exact ⟨hlanguage, hext⟩

theorem mem_of_get_byLanguageId {languages : List TreeSitterLanguageInfo} {id : String}
    {info : TreeSitterLanguageInfo}
    (h : (buildTreeSitterInfoByLangAndExtMap languages).byLanguageId.get id = some info) :
    info ∈ languages ∧ id ∈ info.editorLanguageIds := by
  have hmem := OrderedMap.mem_of_get_setAll h
  obtain ⟨language, hlanguage, hmem⟩ := List.mem_flatMap.mp hmem
  obtain ⟨id', hid, heq⟩ := List.mem_map.mp hmem
  cases heq
  exact ⟨hlanguage, hid⟩

/-- Tables of languages are consistent with the parsers that are there. -/
theorem Consistent.setLanguages {s : Shared L} (hs : Consistent platform definitions s)
    {languages : List TreeSitterLanguageInfo}
    (hlanguages : ∀ info ∈ languages, IsLanguage (L := L) platform definitions info) :
    Consistent platform definitions
      { s with languages := buildTreeSitterInfoByLangAndExtMap languages } where
  byExtension := by
    intro ext info h
    obtain ⟨hmem, hext⟩ := mem_of_get_byExtension h
    exact ⟨hlanguages info hmem, hext⟩
  byLanguageId := by
    intro id info h
    obtain ⟨hmem, hid⟩ := mem_of_get_byLanguageId h
    exact ⟨hlanguages info hmem, hid⟩
  parsers := hs.parsers

theorem consistent_new (baseAssetsUrl : Option String) :
    Consistent platform definitions (new (L := L) platform definitions baseAssetsUrl) := by
  refine ⟨?_, ?_, ?_⟩
  · intro ext info h
    obtain ⟨hmem, hext⟩ := mem_of_get_byExtension h
    cases platform with
    | desktop => exact ⟨hmem, hext⟩
    | browser => cases hmem
  · intro id info h
    obtain ⟨hmem, hid⟩ := mem_of_get_byLanguageId h
    cases platform with
    | desktop => exact ⟨hmem, hid⟩
    | browser => cases hmem
  · intro name parser h
    cases h

theorem Consistent.setParser {s : Shared L} (hs : Consistent platform definitions s) {name : String}
    {parser : Parser L} (hparser : IsParserOf platform definitions name parser) :
    Consistent platform definitions { s with parsers := s.parsers.set name parser } where
  byExtension := hs.byExtension
  byLanguageId := hs.byLanguageId
  parsers := by
    intro name' parser' h
    rw [OrderedMap.get_set] at h
    split at h
    · rename_i heq
      cases h
      rw [heq]
      exact hparser
    · exact hs.parsers name' parser' h

theorem isLanguage_of_resolveLanguages {baseAssetsUrl : Option String}
    {languages : List TreeSitterLanguageInfo}
    (h : resolveLanguages (L := L) definitions baseAssetsUrl = some languages) :
    ∀ info ∈ languages, IsLanguage (L := L) .browser definitions info := by
  have hall : ∀ (ds : List TreeSitterLanguageInfo) languages,
      resolveLanguages (L := L) ds baseAssetsUrl = some languages →
      ∀ info ∈ languages, IsLanguage (L := L) .browser ds info := by
    intro ds
    induction ds with
    | nil =>
      intro languages h info hinfo
      cases h
      cases hinfo
    | cons d ds ih =>
      intro languages h info hinfo
      simp only [resolveLanguages, List.mapM_cons, Option.bind_eq_bind, Option.bind_eq_some_iff,
        Option.map_eq_some_iff, Option.pure_def, Option.some.injEq] at h
      obtain ⟨first, ⟨wasmPath, hresolve, rfl⟩, rest, hrest, rfl⟩ := h
      obtain rfl | hinfo := List.mem_cons.mp hinfo
      · exact ⟨d, List.mem_cons_self, _, wasmPath, hresolve, rfl⟩
      · obtain ⟨d', hd', base, path, hpath, heq⟩ := ih rest hrest info hinfo
        exact ⟨d', List.mem_cons_of_mem d hd', base, path, hpath, heq⟩
  exact hall definitions languages h

variable (platform definitions)

/-- A grammar is loaded for a language of which there is no parser. -/
def LoadsMissing (log : List (Entry (signature L))) : Prop :=
  ∀ (s : Shared L) path, .asked s (.load path) ∈ log →
    ∃ info, IsLanguage (L := L) platform definitions info ∧ info.wasmPath = path ∧
      s.parsers.get info.name = none

variable {platform definitions}

theorem LoadsMissing.append {log rest : List (Entry (signature L))}
    (hlog : LoadsMissing platform definitions log)
    (hrest : LoadsMissing platform definitions rest) :
    LoadsMissing platform definitions (log ++ rest) := by
  intro s path h
  rcases List.mem_append.mp h with h | h
  · exact hlog s path h
  · exact hrest s path h

theorem loadsMissing_nil : LoadsMissing (L := L) platform definitions [] :=
  fun _ _ h => absurd h List.not_mem_nil

/-- Only the requests to load a grammar matter. -/
theorem LoadsMissing.cons {entry : Entry (signature L)} {log : List (Entry (signature L))}
    (hentry : ∀ (s : Shared L) path, entry ≠ .asked s (.load path))
    (hlog : LoadsMissing platform definitions log) :
    LoadsMissing platform definitions (entry :: log) := by
  intro s path h
  rcases List.mem_cons.mp h with h | h
  · exact absurd h.symm (hentry s path)
  · exact hlog s path h

theorem loadsMissing_init (s : Shared L) :
    LoadsMissing platform definitions [.asked (S := signature L) s .init] := by
  apply loadsMissing_nil.cons
  intro s' path h
  cases h

/-! ## What a call does -/

theorem meets_initLibrary (s : Shared L) :
    (initLibrary (L := L)).Meets (Consistent platform definitions) s fun log _ =>
      LoadsMissing platform definitions log := by
  refine meets_ask_bind.mpr ⟨loadsMissing_init s, ?_⟩
  intro answer t ht
  have hkept (loadState : TreeSitterParserLoadState) :
      Consistent platform definitions { t with loadState } :=
    ⟨ht.byExtension, ht.byLanguageId, ht.parsers⟩
  have hlog (loadState : TreeSitterParserLoadState) : LoadsMissing platform definitions
      [.asked (S := signature L) s .init, .answered .init answer,
        .called t (.setLoadState loadState)] := by
    refine .cons (by intro s path h; cases h) (.cons (by intro s path h; cases h) ?_)
    exact loadsMissing_nil.cons (by intro s path h; cases h)
  cases answer with
  | ok _ => exact ⟨hkept .READY, hlog .READY⟩
  | error _ => exact ⟨hkept .ERRORED, hlog .ERRORED⟩

/-- Behind what is caught comes the load state, and nothing is loaded any more. -/
theorem loadsMissing_concat_setLoadState {log : List (Entry (signature L))}
    (hlog : LoadsMissing platform definitions log) (s : Shared L)
    (loadState : TreeSitterParserLoadState) :
    LoadsMissing platform definitions (log ++ [.called s (.setLoadState loadState)]) :=
  hlog.append (loadsMissing_nil.cons (by intro s path h; cases h))

section Calls

variable {s : Shared L} (hs : Consistent platform definitions s)

include hs

theorem meets_init :
    (init (L := L) platform definitions).Meets (Consistent platform definitions) s
      fun log _ => LoadsMissing platform definitions log := by
  cases platform with
  | desktop => exact meets_initLibrary s
  | browser =>
    refine meets_get_bind.mpr ?_
    cases hlanguages : resolveLanguages (L := L) definitions s.baseAssetsUrl with
    | none => exact loadsMissing_nil
    | some languages =>
      have hset := hs.setLanguages (isLanguage_of_resolveLanguages hlanguages)
      refine meets_perform_bind.mpr ⟨hset, ?_⟩
      refine (meets_initLibrary _).mono ?_
      intro log result h
      exact h.cons (by intro s path h; cases h)

theorem Consistent.setLoadState (loadState : TreeSitterParserLoadState) :
    Consistent platform definitions { s with loadState } :=
  ⟨hs.byExtension, hs.byLanguageId, hs.parsers⟩

theorem meets_handleInit :
    (handleInit (L := L) platform definitions).Meets (Consistent platform definitions) s
      fun log result => LoadsMissing platform definitions log ∧ ∀ e, result ≠ some (.error e) := by
  have hinit : (do init (L := L) platform definitions; return true).Meets
      (Consistent platform definitions) s fun log _ => LoadsMissing platform definitions log := by
    apply Meets.bind hs (meets_init hs)
    · intro log hlog
      exact hlog
    · intro log e hlog
      exact hlog
    · intro log _ t _ hlog
      show LoadsMissing platform definitions (log ++ [])
      rwa [List.append_nil]
  apply Meets.tryCatch hs hinit
  · intro log hlog
    exact ⟨hlog, by simp⟩
  · intro log ready hlog
    exact ⟨hlog, by simp⟩
  · intro log e t ht hlog
    exact ⟨ht.setLoadState .ERRORED, loadsMissing_concat_setLoadState hlog t .ERRORED, by simp⟩

omit hs in
theorem meets_loadParser {languageInfo : TreeSitterLanguageInfo}
    (hlanguage : IsLanguage (L := L) platform definitions languageInfo)
    (hmissing : s.parsers.get languageInfo.name = none) :
    (loadParser (L := L) languageInfo).Meets (Consistent platform definitions) s fun log result =>
      LoadsMissing platform definitions log ∧ ∀ parser, result = some (.ok parser) →
        ∀ p ∈ parser, IsParserOf platform definitions languageInfo.name p := by
  have hasked {rest : List (Entry (signature L))} (hrest : LoadsMissing platform definitions rest) :
      LoadsMissing platform definitions
        (.asked (S := signature L) s (.load languageInfo.wasmPath) :: rest) := by
    intro s' path h
    rcases List.mem_cons.mp h with h | h
    · cases h
      exact ⟨languageInfo, hlanguage, rfl, hmissing⟩
    · exact hrest s' path h
  refine meets_get_bind.mpr ?_
  split_ifs with hconstructible
  · exact ⟨loadsMissing_nil, by simp⟩
  · refine meets_ask_bind.mpr ⟨⟨hasked loadsMissing_nil, by simp⟩, ?_⟩
    intro answer t ht
    have hanswered {rest : List (Entry (signature L))}
        (hrest : LoadsMissing platform definitions rest) : LoadsMissing platform definitions
          (.asked (S := signature L) s (.load languageInfo.wasmPath) ::
            .answered (.load languageInfo.wasmPath) answer :: rest) :=
      hasked (hrest.cons (by intro s path h; cases h))
    cases answer with
    | error _ => exact ⟨hanswered loadsMissing_nil, by simp⟩
    | ok language =>
      simp only
      split_ifs with hcompatible
      · exact ⟨hanswered loadsMissing_nil, by simp⟩
      · have hparser : IsParserOf (L := L) platform definitions languageInfo.name ⟨language.1⟩ :=
          ⟨languageInfo, hlanguage, rfl, language.2⟩
        refine meets_perform_bind.mpr ⟨ht.setParser hparser, ?_⟩
        refine ⟨hanswered (loadsMissing_nil.cons (by intro s path h; cases h)), ?_⟩
        intro parser h p hp
        cases h
        cases hp
        exact hparser

/-- A parser that is returned has a grammar of the language. -/
theorem meets_getParser {languageInfo : TreeSitterLanguageInfo}
    (hlanguage : IsLanguage (L := L) platform definitions languageInfo) :
    (getParser (L := L) languageInfo).Meets (Consistent platform definitions) s fun log result =>
      LoadsMissing platform definitions log ∧ (∀ e, result ≠ some (.error e)) ∧
        ∀ parser, result = some (.ok parser) →
          ∀ p ∈ parser, IsParserOf platform definitions languageInfo.name p := by
  refine meets_get_bind.mpr ?_
  cases hparser : s.parsers.get languageInfo.name with
  | some parser =>
    refine ⟨loadsMissing_nil, by simp, ?_⟩
    intro parser' h p hp
    cases h
    cases hp
    exact hs.parsers _ parser hparser
  | none =>
    apply Meets.tryCatch hs (meets_loadParser hlanguage hparser)
    · intro log hlog
      exact ⟨hlog.1, by simp⟩
    · intro log parser hlog
      exact ⟨hlog.1, by simp, hlog.2⟩
    · intro log e t ht hlog
      refine ⟨ht.setLoadState .ERRORED, loadsMissing_concat_setLoadState hlog.1 t .ERRORED,
        by simp, ?_⟩
      intro parser h p hp
      cases h
      cases hp

/-- The language that is found for a file describes it. -/
theorem describes_of_getLanguageInfoForFile {request : ParseRequest}
    {languageInfo : TreeSitterLanguageInfo}
    (h : getLanguageInfoForFile request.filename request.languageId s.languages =
      some languageInfo) :
    IsLanguage (L := L) platform definitions languageInfo ∧ Describes request languageInfo := by
  rw [getLanguageInfoForFile] at h
  rw [Describes]
  cases hid : request.languageId.filter (· ≠ "") with
  | some languageId =>
    rw [hid] at h
    exact hs.byLanguageId languageId languageInfo h
  | none =>
    rw [hid] at h
    exact hs.byExtension _ languageInfo h

end Calls

/-! ## Calls that interleave -/

variable (platform definitions)

/-- A tree of the text, parsed with a grammar of the language of the file. -/
structure WellParsed (request : ParseRequest) (tree : TreeAndLanguage L) : Prop where
  isLanguage : IsLanguage (L := L) platform definitions tree.languageInfo
  describes : Describes request tree.languageInfo
  grammar : IsParserOf platform definitions tree.languageInfo.name tree.parser
  language : tree.language = tree.parser.language
  tree : tree.tree = L.parse tree.language request.text

/-- What one call has done so far. -/
structure Parses (request : ParseRequest) (log : List (Entry (signature L)))
    (result : Option (Except Unit (Option (TreeAndLanguage L)))) : Prop where
  loads : LoadsMissing platform definitions log
  noError : ∀ e, result ≠ some (.error e)
  wellParsed : ∀ tree, result = some (.ok tree) →
    ∀ t ∈ tree, WellParsed platform definitions request t

variable {platform definitions}

/-- A call that has no tree yet, or returns none. -/
theorem Parses.of_loads {request : ParseRequest} {log : List (Entry (signature L))}
    {result : Option (Except Unit (Option (TreeAndLanguage L)))}
    (hlog : LoadsMissing platform definitions log)
    (hresult : result = none ∨ result = some (.ok none)) :
    Parses platform definitions request log result := by
  refine ⟨hlog, ?_, ?_⟩
  · intro e h
    rcases hresult with rfl | rfl <;> cases h
  · intro tree h t ht
    rcases hresult with rfl | rfl <;> cases h
    cases ht

theorem meets_parse {s : Shared L} (hs : Consistent platform definitions s)
    (request : ParseRequest) :
    (parse (L := L) platform definitions request).Meets (Consistent platform definitions) s
      (Parses platform definitions request) := by
  apply Meets.bind hs (meets_handleInit hs)
  · intro log hlog
    exact .of_loads hlog.1 (.inl rfl)
  · intro log e hlog
    exact absurd rfl (hlog.2 e)
  intro log ready t ht hlog
  cases ready with
  | false => exact .of_loads (hlog.1.append loadsMissing_nil) (.inr rfl)
  | true =>
    refine meets_get_bind.mpr ?_
    cases hfound : getLanguageInfoForFile request.filename request.languageId t.languages with
    | none => exact .of_loads (hlog.1.append loadsMissing_nil) (.inr rfl)
    | some languageInfo =>
      obtain ⟨hlanguage, hdescribes⟩ := describes_of_getLanguageInfoForFile ht hfound
      apply Meets.bind ht (meets_getParser ht hlanguage)
      · intro rest hrest
        exact .of_loads (hlog.1.append hrest.1) (.inl rfl)
      · intro rest e hrest
        exact absurd rfl (hrest.2.1 e)
      intro rest parser u _ hrest
      have hloads := hlog.1.append (hrest.1.append loadsMissing_nil)
      cases parser with
      | none => exact .of_loads hloads (.inr rfl)
      | some parser =>
        refine ⟨hloads, ?_, ?_⟩
        · intro e h
          cases h
        · intro tree h t ht
          cases h
          cases ht
          exact ⟨hlanguage, hdescribes, hrest.2.2 _ rfl parser rfl, rfl, rfl⟩

/-- **Calls that interleave in any way.** None throws; what is returned is a tree of the text, with
a grammar of the language of the file; and a grammar is loaded only if there is no parser for it. -/
theorem parses_of_run {baseAssetsUrl : Option String}
    {as : List (Async.Action (signature L) ParseRequest Event)}
    {t : Async.System (signature L) ParseRequest (Option (TreeAndLanguage L))}
    (h : Transition.run (Async.System.step (parse (L := L) platform definitions) (event L))
      ⟨new platform definitions baseAssetsUrl, []⟩ as = some t) :
    ∀ task ∈ t.tasks,
      Parses platform definitions task.input task.log task.program.result := by
  have hprogram : ∀ request s, Consistent platform definitions s →
      (parse (L := L) platform definitions request).Meets (Consistent platform definitions) s
        (Parses platform definitions request) := fun request s hs => meets_parse hs request
  have hevent : ∀ e s u, Consistent platform definitions s → event L e s = some u →
      Consistent platform definitions u := by
    intro e s u hs hu
    cases e with
    | setBaseAssetsUrl url =>
      cases hu
      exact ⟨hs.byExtension, hs.byLanguageId, hs.parsers⟩
    | setConstructible isConstructible =>
      cases hu
      exact ⟨hs.byExtension, hs.byLanguageId, hs.parsers⟩
  exact (Async.System.meets_of_run hprogram hevent (consistent_new baseAssetsUrl) h).2

section Sample

/-- A grammar is known by its path. -/
def sampleLibrary : Library where
  Language := String
  Tree := String × JsString
  Holds := fun path language => language = path
  isCompatible := fun _ => true
  parse := Prod.mk
  resolve := fun relativeUrl base => some (base ++ relativeUrl)

def sampleDefinitions : List TreeSitterLanguageInfo := [⟨"go", [".go"], ["go"], "go.wasm"⟩]

def succeeds : (q : Request) → q.Answer sampleLibrary
  | .init => .ok ()
  | .load wasmPath => .ok ⟨wasmPath, rfl⟩

/-- Two calls of which the second finds the parser that the first has loaded. -/
def sampleRun : List (Async.Action (signature sampleLibrary) ParseRequest Event) :=
  [.start (.content (JsString.ofString "a") "go"), .start (.content (JsString.ofString "b") "go"),
    .environment (.setConstructible true), .answer 0 succeeds, .answer 0 succeeds,
    .answer 1 succeeds]

theorem parses_of_run_of_two : ∃ t,
    Transition.run (Async.System.step (parse .desktop sampleDefinitions) (event sampleLibrary))
      ⟨new .desktop sampleDefinitions none, []⟩ sampleRun = some t ∧
    (∃ tree, t.tasks.map (fun task => task.program.result) =
      [some (.ok (some tree)), some (.ok (some { tree with tree := ("go.wasm", [0x62]) }))]) ∧
    ∀ task ∈ t.tasks,
      Parses .desktop sampleDefinitions task.input task.log task.program.result := by
  obtain ⟨t, ht, hresults⟩ : ∃ t,
      Transition.run (Async.System.step (parse .desktop sampleDefinitions) (event sampleLibrary))
        ⟨new .desktop sampleDefinitions none, []⟩ sampleRun = some t ∧
      ∃ tree, t.tasks.map (fun task => task.program.result) =
        [some (.ok (some tree)), some (.ok (some { tree with tree := ("go.wasm", [0x62]) }))] :=
    ⟨_, rfl, _, rfl⟩
  exact ⟨t, ht, hresults, parses_of_run ht⟩

end Sample

end KhulnasoftLsp.TreeSitterParser
