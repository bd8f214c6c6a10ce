import RepoGraph.ImportResolver

/-! The cross-partition import overlay: the resident import observations that resolve to a FILE of the
resident inventory, by the relative, the alias and the dynamic route. -/

namespace RepoGraph.LiveGraph

open Lib Lib.Text Ir ImportResolver

def fileScopeKeys (ir : PartitionIr) : List String :=
  (ir.nodes.filter (fun n => n.identitySource = .astFileScope)).map (fun n => n.key.asStr)

def residentInventory (irs : List PartitionIr) : FileInventory :=
  .fromFileKeys (irs.flatMap fileScopeKeys)

structure OverlayInputs where
  candidates : List ImportCandidate
  aliasEdges : List ResolvedImportEdgeCandidate
  dynamicRelative : List ImportCandidate

def aliasEdge (inv : FileInventory) (cfg : TsconfigAliasConfig) (basis : EdgeBasis) (srcKey raw : String) :
    Option ResolvedImportEdgeCandidate :=
  match resolveTsconfigAlias raw cfg inv with
  | .resolved dstKey => some ⟨srcKey, dstKey, basis, raw, (fileKeyPath dstKey).getD ""⟩
  | _ => none

def collectObservation (inv : FileInventory) (aliases : Option TsconfigAliasConfig)
    (acc : OverlayInputs) (o : ImportObservation) : OverlayInputs :=
  match o.resolution with
  | .staticUnresolved =>
    match inv.fileKeyFor o.sourceFile with
    | some srcKey => { acc with candidates := acc.candidates ++ [⟨srcKey, o.rawSpecifier⟩] }
    | none => acc
  | .packageExternal =>
    match aliases, inv.fileKeyFor o.sourceFile with
    | some cfg, some srcKey =>
      { acc with aliasEdges := acc.aliasEdges ++
        (aliasEdge inv cfg .astImportTsconfigPathResolved srcKey o.rawSpecifier).toList }
    | _, _ => acc
  | .dynamicUnsupported =>
    -- A non-literal `import(expr)` has the empty specifier and never becomes an edge.
    if o.rawSpecifier = "" then acc
    else
      match inv.fileKeyFor o.sourceFile with
      | none => acc
      | some srcKey =>
        if startsWith o.rawSpecifier "." then
          { acc with dynamicRelative := acc.dynamicRelative ++ [⟨srcKey, o.rawSpecifier⟩] }
        else
          match aliases with
          | some cfg =>
            { acc with aliasEdges := acc.aliasEdges ++
              (aliasEdge inv cfg .astDynamicImportResolved srcKey o.rawSpecifier).toList }
          | none => acc
  | .staticResolved => acc

def collectPartition (inv : FileInventory) (acc : OverlayInputs) (ir : PartitionIr) : OverlayInputs :=
  ir.importObservations.foldl (collectObservation inv ir.partition.tsconfigAliases) acc

def overlayOf (irs : List PartitionIr) : List ResolvedImportEdgeCandidate :=
  let inventory := residentInventory irs
  let inputs := irs.foldl (collectPartition inventory) ⟨[], [], []⟩
  let dynamicResolved := (resolveImports inventory inputs.dynamicRelative).resolved.map
    (fun e => { e with basis := EdgeBasis.astDynamicImportResolved })
  (resolveImports inventory inputs.candidates).resolved ++ inputs.aliasEdges ++ dynamicResolved

end RepoGraph.LiveGraph
