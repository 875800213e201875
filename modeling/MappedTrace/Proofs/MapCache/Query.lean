import MappedTrace.Proofs.EvalOrigin.Core
import MappedTrace.Proofs.MapCache.Lookup

/-!
# Queries

The four things that a cache is asked for. Each of them looks up at most one source, and its answer
is a function of the map that is found.
-/

namespace MappedTrace.MapCache

inductive Query where
  | sourceMap (source : Text)
  | position (position : Position)
  | evalOrigin (origin : Text)
  | callSite (site : CallSite)

inductive Answer where
  | sourceMap (map : Option SourceMap)
  | position (position : Position)
  | evalOrigin (origin : Text)
  | callSite (site : CallSite)

namespace Query

def ask (files : FileSystem) : Query → Lookups Answer
  | sourceMap source => .sourceMap <$> sourceMapFor files source
  | position generated => .position <$> relocate files generated
  | evalOrigin origin => .evalOrigin <$> EvalOrigin.relocate files origin
  | callSite site => .callSite <$> site.relocate files

/-- The source at the core of an eval origin. -/
def coreSource? (origin : Text) : Option Text :=
  (EvalOrigin.core? origin).map fun core => core.2.source

/-- The source that a query looks up, if any. -/
def source? : Query → Option Text
  | sourceMap source => some source
  | position generated => some generated.source
  | evalOrigin origin => coreSource? origin
  | callSite site =>
    match site.position? with
    | some generated => some generated.source
    | none => site.evalOrigin.bind coreSource?

def answer (map : Option SourceMap) : Query → Answer
  | sourceMap _ => .sourceMap map
  | position generated => .position (SourceMap.moved map generated)
  | evalOrigin origin => .evalOrigin (EvalOrigin.movedBy (SourceMap.moved map) origin)
  | callSite site => .callSite (site.movedBy (SourceMap.moved map))

private theorem relocate_origin_eq (files : FileSystem) (origin : Text) :
    EvalOrigin.relocate files origin =
      match coreSource? origin with
      | none => pure (EvalOrigin.movedBy (SourceMap.moved none) origin)
      | some source =>
        (fun map => EvalOrigin.movedBy (SourceMap.moved map) origin) <$>
          sourceMapFor files source := by
  rw [EvalOrigin.relocate_eq]
  unfold coreSource? EvalOrigin.movedBy
  cases EvalOrigin.core? origin with
  | none => rfl
  | some core => simp [relocate_eq]

theorem ask_eq (files : FileSystem) (query : Query) :
    query.ask files =
      match query.source? with
      | none => pure (query.answer none)
      | some source => (query.answer ·) <$> sourceMapFor files source := by
  cases query with
  | sourceMap source => rfl
  | position generated => simp [ask, source?, answer, relocate_eq]
  | evalOrigin origin =>
    simp only [ask, source?, answer, relocate_origin_eq]
    cases coreSource? origin with
    | none => simp
    | some source => simp
  | callSite site =>
    simp only [ask, source?, answer, CallSite.relocate_eq, CallSite.movedBy]
    cases site.position? with
    | some generated => simp [relocate_eq]
    | none =>
      cases site.evalOrigin with
      | none => simp
      | some origin =>
        simp only [relocate_origin_eq, Option.bind_some]
        cases coreSource? origin with
        | none => simp
        | some source => simp

theorem run_ask_of_source?_eq_none (files : FileSystem) {query : Query} (cache : MapCache)
    (h : query.source? = none) : (query.ask files).run cache = (query.answer none, cache) := by
  rw [ask_eq, h]
  rfl

theorem run_ask_of_source?_eq_some (files : FileSystem) {query : Query} {source : Text}
    (cache : MapCache) (h : query.source? = some source) :
    (query.ask files).run cache =
      (query.answer ((sourceMapFor files source).run cache).1,
        ((sourceMapFor files source).run cache).2) := by
  rw [ask_eq, h]
  rfl

end Query

def after (files : FileSystem) (cache : MapCache) (queries : List Query) : MapCache :=
  queries.foldl (fun cache query => ((query.ask files).run cache).2) cache

end MappedTrace.MapCache
