import Karst.Biome
import Karst.Block
import Karst.Cache.Arena
import Karst.Cache.Pool
import Karst.Cache.Tiered
import Karst.CommandLine
import Karst.Cube.Palette
import Karst.Cube.Perimeter
import Karst.Cube.Voxels
import Karst.Data
import Karst.Fault
import Karst.Feature.Bucket
import Karst.Feature.Driver
import Karst.Feature.Generator
import Karst.Feature.Script
import Karst.Feature.Tree
import Karst.Generation.Carve
import Karst.Generation.Caves
import Karst.Generation.Ellipsoid
import Karst.Generation.Pockets
import Karst.Geometry.Box
import Karst.Geometry.Coord
import Karst.Geometry.Key
import Karst.Geometry.Vector
import Karst.Hash
import Karst.Main
import Karst.Noise.Gradient
import Karst.Noise.Grid
import Karst.Noise.Layers
import Karst.Pipeline
import Karst.Precalc.Basic
import Karst.Precalc.Shelf
import Karst.Precalc.Tasks
import Karst.Proofs.Block
import Karst.Proofs.BlockName
import Karst.Proofs.Cache.Arena
import Karst.Proofs.Cache.Climb
import Karst.Proofs.Cache.Handles
import Karst.Proofs.Cache.Holdings
import Karst.Proofs.Cache.Ledger
import Karst.Proofs.Cache.Lending
import Karst.Proofs.Cache.Pool
import Karst.Proofs.Cache.Retention
import Karst.Proofs.Cache.Tenure
import Karst.Proofs.Cache.Tiered
import Karst.Proofs.Cube.Checksum
import Karst.Proofs.Cube.Drafts
import Karst.Proofs.Cube.Faces
import Karst.Proofs.Cube.Perimeter
import Karst.Proofs.Cube.Voxels
import Karst.Proofs.Cube.Worn
import Karst.Proofs.Digest
import Karst.Proofs.Exact
import Karst.Proofs.Feature.Bucket
import Karst.Proofs.Feature.Filing
import Karst.Proofs.Feature.Firsts
import Karst.Proofs.Feature.Forest
import Karst.Proofs.Feature.Growth
import Karst.Proofs.Feature.Node
import Karst.Proofs.Feature.Ownership
import Karst.Proofs.Feature.Pruning
import Karst.Proofs.Feature.Reach
import Karst.Proofs.Feature.Recorded
import Karst.Proofs.Feature.Replay
import Karst.Proofs.Feature.Settled
import Karst.Proofs.Feature.Stock
import Karst.Proofs.Feature.Tended
import Karst.Proofs.Feature.Transcript
import Karst.Proofs.Feature.Transparency
import Karst.Proofs.Feature.Uncached
import Karst.Proofs.Feature.View
import Karst.Proofs.Feature.Writes
import Karst.Proofs.Fnv
import Karst.Proofs.Generation.Blocks
import Karst.Proofs.Generation.Branching
import Karst.Proofs.Generation.Discovery
import Karst.Proofs.Generation.Groups
import Karst.Proofs.Generation.Lava
import Karst.Proofs.Generation.Overlay
import Karst.Proofs.Generation.Reach
import Karst.Proofs.Generation.Walk
import Karst.Proofs.Geometry.Axis
import Karst.Proofs.Geometry.Bounds
import Karst.Proofs.Geometry.Hull
import Karst.Proofs.Geometry.Key
import Karst.Proofs.Geometry.Neighborhood
import Karst.Proofs.Geometry.Order
import Karst.Proofs.Geometry.Position
import Karst.Proofs.GroundLevel
import Karst.Proofs.Guarded
import Karst.Proofs.Keyed
import Karst.Proofs.Layers
import Karst.Proofs.Mixing
import Karst.Proofs.Noise.Fingerprint
import Karst.Proofs.Noise.Grid
import Karst.Proofs.Noise.Lattice
import Karst.Proofs.Noise.Layout
import Karst.Proofs.Noise.Seams
import Karst.Proofs.Pipeline.History
import Karst.Proofs.Pipeline.Idempotence
import Karst.Proofs.Pipeline.Plain
import Karst.Proofs.Pipeline.Reload
import Karst.Proofs.Pipeline.Soundness
import Karst.Proofs.Placement
import Karst.Proofs.Precalc.Accounts
import Karst.Proofs.Precalc.Depot
import Karst.Proofs.Precalc.Shelf
import Karst.Proofs.Precalc.Upkeep
import Karst.Proofs.Precalc.Workshop
import Karst.Proofs.Random
import Karst.Proofs.Region
import Karst.Proofs.Seeds
import Karst.Proofs.Settings
import Karst.Proofs.Terrain
import Karst.Proofs.Text.Decimal
import Karst.Random.ChaCha
import Karst.Random.Stream
import Karst.Region
import Karst.Settings.Check
import Karst.Settings.Params
import Karst.Settings.Read
import Karst.Terrain
import Karst.Text.Binary64
import Karst.Text.Blank
import Karst.Text.Decimal
import Karst.Toml.Document
import Karst.Toml.Moment
import Karst.Toml.Number
import Karst.Toml.Quoted
import Karst.Toml.Reader
import Karst.Toml.Table
import Karst.Toml.Value
